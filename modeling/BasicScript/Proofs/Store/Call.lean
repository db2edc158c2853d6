import BasicScript.Proofs.Store.Operation

/-! Built-in functions and native tables keep every discipline: a call makes nothing but values that
the run owns, provided that it owns the arguments and that the discipline trusts the host functions.
-/

set_option autoImplicit false

namespace BasicScript.Discipline

variable {D : Discipline} {w : World}

section Effects

variable {α : Type} {P : Store → α → Prop}

theorem ofAct {act : Act α} (sound : D.SoundAct w.store P (act w.store)) :
    D.SoundEffect w.store P (Effect.ofAct act w) := by
  simp only [Effect.ofAct]
  generalize act w.store = outcome at sound ⊢
  cases sound with
  | value holds grows fits => exact .value holds grows fits
  | fault holds grows raised => exact .fault holds grows raised

theorem readEffect {view : Store → α} (holds : D.holds w.store) (fits : P w.store (view w.store)) :
    D.SoundEffect w.store P (Effect.read view w) :=
  ofAct (read holds fits)

theorem liftEffect {result : Except Fault α} (holds : D.holds w.store)
    (refuses : Refuses result) (fits : ∀ a, result = .ok a → P w.store a) :
    D.SoundEffect w.store P (Effect.lift result w) :=
  ofAct (lift holds (raises_of_refuses refuses) fits)

end Effects

theorem write {text : String} (holds : D.holds w.store) :
    D.SoundEffect w.store anything (Effect.write text w) := by
  simp only [Effect.write]
  split
  · exact .value holds (.refl _) trivial
  · exact .fault holds (.refl _) (D.raises_runtime rfl)

theorem writeLine {text : String} (holds : D.holds w.store) :
    D.SoundEffect w.store anything (Effect.writeLine text w) :=
  Sound.bind (write holds) fun _ _ holds _ _ => write holds

theorem readLine (holds : D.holds w.store) :
    D.SoundEffect w.store anything (Effect.readLine w) := by
  simp only [Effect.readLine]
  split
  · exact .value holds (.refl _) trivial
  · exact .fault holds (.refl _) (D.raises_runtime rfl)

/-- After an act that only matters for what it does, a plain value is an owned one. -/
theorem plain_after {α : Type} {act : Effect α} {f : α → Value}
    (sound : D.SoundEffect w.store anything (act w)) (plain : ∀ a, (f a).isPlain = true) :
    D.SoundEffect w.store D.owns ((do return f (← act)) w : EStateM.Result Fault World Value) :=
  sound.bind fun a _ holds _ _ => .pure holds (D.owns_plain (plain a))

theorem number_after {result : Except Fault Number} (holds : D.holds w.store)
    (refuses : Refuses result) :
    D.SoundEffect w.store D.owns ((Value.number <$> Effect.lift result) w) :=
  .map (f := Value.number) (liftEffect holds refuses fun _ _ => D.owns_plain rfl)

theorem joined {args : List Value} (holds : D.holds w.store) :
    D.SoundEffect w.store anything (BuiltIn.joined args w) :=
  (readEffect (P := anything) holds trivial).bind fun _ _ holds _ _ => .pure holds trivial

theorem terminal {function : TerminalFunction} {args : List Value} (holds : D.holds w.store) :
    D.SoundEffect w.store D.owns (BuiltIn.terminal function args w) := by
  cases function with
  | print =>
    exact (joined holds).bind fun _ _ holds _ _ => plain_after (write holds) fun _ => rfl
  | printLine =>
    exact (joined holds).bind fun _ _ holds _ _ => plain_after (writeLine holds) fun _ => rfl
  | input =>
    cases args with
    | nil => exact plain_after (readLine holds) fun _ => rfl
    | cons prompt rest =>
      refine (readEffect (P := anything) holds trivial).bind fun _ _ holds _ _ => ?_
      exact (write holds).bind fun _ _ holds _ _ => plain_after (readLine holds) fun _ => rfl
  | clear => exact plain_after (write holds) fun _ => rfl

theorem owns_of_getFromLast {s : Store} {receiver index v : Value} (holds : D.holds s)
    (owned : D.owns s receiver) (found : BuiltIn.getFromLast s receiver index = .ok v) :
    D.owns s v := by
  simp only [BuiltIn.getFromLast] at found
  cases distance : BuiltIn.offset index with
  | error fault => rw [distance] at found; cases found
  | ok n =>
    simp only [distance, bind, Except.bind] at found
    split at found
    · split at found
      · exact owns_of_getItem holds owned found
      · cases found
    · cases found

theorem pop [D.LaxLists] {s : Store} {list : Handle} (holds : D.holds s) (owned : D.owns s (.list list)) :
    D.SoundAct s D.owns (BuiltIn.pop list s) := by
  apply Sound.bind (P := fun t last => t = s ∧ last = (s.items list).back?)
    (read holds ⟨rfl, rfl⟩)
  intro last t _ _ same
  obtain ⟨rfl, rfl⟩ := same
  cases last : (t.items list).back? with
  | none => exact .fault holds (.refl t) (D.raises_runtime rfl)
  | some v =>
    have shorter : D.holds (t.setItems list Array.pop) :=
      D.items_changed holds owned (fun v found => by
        rw [Array.mem_def, Array.toList_pop] at found
        exact D.owns_item holds owned (Array.mem_def.mpr (List.dropLast_subset _ found)))
        (.inr (by rw [Array.toList_pop]; exact List.dropLast_sublist _)) (LaxLists.allows_items holds)
    have grows : t.Extends (t.setItems list Array.pop) := Store.extends_setItems _
    exact .value shorter grows
      (D.owns_mono grows (D.owns_item holds owned (Array.mem_of_back? last)))

theorem append [D.LaxLists] {s : Store} {list : Handle} {v : Value} (holds : D.holds s)
    (owned : D.owns s (.list list)) (mutates : D.mutates) (ownsItem : D.owns s v) :
    D.SoundAct s anything ((modify (·.setItems list (·.push v)) : Act PUnit) s) := by
  refine .value (D.items_changed holds owned (fun other found => ?_) (.inl mutates)
    (LaxLists.allows_items holds)) (Store.extends_setItems _) trivial
  rcases Array.mem_push.mp found with found | rfl
  · exact D.owns_item holds owned found
  · exact ownsItem

theorem perform [D.LaxLists] {name : String} {action : Action} {args : List Value} {trace : List String}
    {scope : Handle} (holds : D.holds w.store) (sees : D.sees w.store scope)
    (within : action.Within (D.owns w.store) D.trusts D.mutates)
    (owned : ∀ v ∈ args, D.owns w.store v) :
    D.SoundEffect w.store D.owns (BuiltIn.perform name action args trace scope w) := by
  have argument : D.owns w.store (args.headD .null) := by
    cases args with
    | nil => exact D.owns_plain rfl
    | cons v rest => exact owned v (by simp)
  cases action with
  | print =>
    exact (joined holds).bind fun _ _ holds _ _ => plain_after (writeLine holds) fun _ => rfl
  | text => exact plain_after (readEffect holds trivial) fun _ => rfl
  | number => exact number_after holds Value.refuses_toNumber
  | length =>
    refine (readEffect (P := anything) holds trivial).bind fun found t holds _ _ => ?_
    cases found with
    | none => exact .throw holds rfl
    | some n => exact .pure holds (D.owns_plain rfl)
  | typeName => exact .pure holds (D.owns_plain rfl)
  | half n => exact number_after holds (Number.refuses_div _ _)
  | double n | floor n | ceil n => exact .pure holds (D.owns_plain rfl)
  | sqrt n => exact number_after holds (Number.refuses_sqrt _)
  | get receiver => exact ofAct (getItem holds within)
  | getFromLast receiver =>
    exact ofAct (readExcept holds BuiltIn.refuses_getFromLast fun _ => owns_of_getFromLast holds within)
  | size receiver => exact plain_after (readEffect holds trivial) fun _ => rfl
  | append list => exact plain_after (ofAct (append holds within.1 within.2 argument)) fun _ => rfl
  | pop list => exact ofAct (pop holds within)
  | keys dictionary =>
    refine ofAct (newList holds fun v found => ?_)
    obtain ⟨entry, inside, rfl⟩ := Array.mem_map.mp found
    exact (D.owns_entry holds within inside).1
  | values dictionary =>
    refine ofAct (newList holds fun v found => ?_)
    obtain ⟨entry, inside, rfl⟩ := Array.mem_map.mp found
    exact (D.owns_entry holds within inside).2
  | math function =>
    exact number_after holds ((BuiltIn.refuses_numbers name args).bind (BuiltIn.refuses_math function))
  | terminal function => exact terminal holds
  | host function =>
    refine ofAct (lift holds (fun _ => D.raises_refusal within) fun v found => ?_)
    exact D.owns_answer within owned (fun _ _ => D.owns_variable holds sees) found

theorem call [D.LaxLists] {b : BuiltIn} {args : List Value} {trace : List String} {scope : Handle}
    (holds : D.holds w.store) (sees : D.sees w.store scope)
    (within : b.action.Within (D.owns w.store) D.trusts D.mutates)
    (owned : ∀ v ∈ args, D.owns w.store v) :
    D.SoundEffect w.store D.owns (b.call args trace scope w) := by
  unfold BuiltIn.call
  cases b.arity with
  | none => exact perform holds sees within owned
  | some arity =>
    apply Sound.bind (P := fun t _ => t = w.store) (liftEffect holds (arity.refuses_check _ _) fun _ _ => rfl)
    intro _ t holds _ same
    rw [← same] at sees within owned
    exact perform holds sees within owned

end BasicScript.Discipline
