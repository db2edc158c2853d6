import BasicScript.Proofs.Evaluate.Halting

/-! The rules of the evaluator for tame nodes. Each of them halts when its parts do. A loop over a
list halts since no turn makes the list longer; a call needs the bodies of functions to halt one
call deeper, and an import the statements of files that are not active yet. -/

set_option autoImplicit false

namespace BasicScript

/-- On evaluators for each amount of fuel, the node halts wherever these files and so many calls are
active. -/
def Node.Halting (origin : Store) (E : Nat → Evaluator) (st : List Path) (d : Nat) (node : Node) :
    Prop :=
  ∀ ⦃f : Frame⦄ ⦃s : Session⦄, f.Steady origin st d s →
    Halts origin (fun m => E m node f) s (Value.There origin)

namespace Node.Halting

variable {origin : Store} {E : Nat → Evaluator} {st : List Path} {d : Nat} {f : Frame} {s : Session}
  {span : Span}

theorem later {node : Node} (halts : node.Halting origin E st d) (k : Nat) :
    node.Halting origin (fun m => E (m + k)) st d := fun _ _ steady => (halts steady).later k

theorem values {nodes : List Node} {found : Array Value}
    (each : ∀ node ∈ nodes, node.Halting origin E st d) (steady : f.Steady origin st d s)
    (there : allThere origin s.world.store found) :
    Halts origin (fun m => (E m).values f nodes found) s (allThere origin) := by
  induction nodes generalizing found s with
  | nil => exact .pure steady there
  | cons node rest ih =>
    apply Halts.bind (each node (by simp) steady)
    intro value t settles new
    refine ih (fun node inside => each node (by simp [inside])) (steady.after settles)
      fun v inside => ?_
    rcases Array.mem_push.mp inside with inside | rfl
    · exact settles.there (there v inside)
    · exact new

theorem condition {node : Node} (halts : node.Halting origin E st d)
    (steady : f.Steady origin st d s) :
    Halts origin (fun m => (E m).condition f node) s anyValue := by
  apply Halts.bind (halts steady)
  intro value t settles _
  exact .act (Discipline.readExcept (steady.after settles).holds Store.refuses_truth
    fun _ _ => trivial)

theorem access {name : String} (steady : f.Steady origin st d s) :
    Halts origin (fun _ => Evaluator.access f name span) s (Value.There origin) :=
  .act (Discipline.readExcept steady.holds Store.refuses_lookup fun _ =>
    (Discipline.calm origin _).owns_variable steady.holds steady.beyond)

theorem binary {left right : Node} {operator : BinaryOperator} (first : left.Halting origin E st d)
    (second : right.Halting origin E st d) (steady : f.Steady origin st d s) :
    Halts origin (fun m => (E m).binary f left operator right span) s (Value.There origin) := by
  apply Halts.bind (first steady)
  intro a t settles there
  have steady := steady.after settles
  apply Halts.bind (second steady)
  intro b u settles there'
  exact .act (Discipline.binary (steady.after settles).holds (settles.there there) there')

theorem unary {operand : Node} {operator : UnaryOperator} (halts : operand.Halting origin E st d)
    (steady : f.Steady origin st d s) :
    Halts origin (fun m => (E m).unary f operator operand span) s (Value.There origin) := by
  apply Halts.bind (halts steady)
  intro value t settles _
  exact .act (Discipline.unary (steady.after settles).holds)

theorem declare {name : String} {constant : Bool} {value : Node} (halts : value.Halting origin E st d)
    (steady : f.Steady origin st d s) :
    Halts origin (fun m => (E m).declare f name constant value span) s (Value.There origin) := by
  apply Halts.bind (halts steady)
  intro v t settles there
  have steady := steady.after settles
  apply Halts.bind (.act (Discipline.declare steady.holds steady.beyond there))
  intro _ u settles _
  exact .pure (steady.after settles) (settles.there there)

theorem assign {name : String} {compound : Option BinaryOperator} {value : Node}
    (halts : value.Halting origin E st d) (steady : f.Steady origin st d s) :
    Halts origin (fun m => (E m).assign f name compound value span) s (Value.There origin) := by
  -- what is left to do once the new value is known
  have store {v : Value} {t : Session} (steady : f.Steady origin st d t)
      (there : v.There origin t.world.store) :
      Halts origin
        (fun _ => (do Eval.ofAct f span (Store.assign f.scope name v); return v : Eval Value)) t
        (Value.There origin) := by
    apply Halts.bind (.act (Discipline.assign steady.holds steady.beyond there))
    intro _ u settles _
    exact .pure (steady.after settles) (settles.there there)
  apply Halts.bind (halts steady)
  intro v t settles there
  have steady := steady.after settles
  cases compound with
  | none => exact store steady there
  | some operator =>
    apply Halts.bind (access steady)
    intro current u settles there'
    have steady := steady.after settles
    apply Halts.bind (.act (Discipline.binary steady.holds there' (settles.there there)))
    intro w r settles there
    exact store (steady.after settles) there

theorem list {items : List Node} (each : ∀ node ∈ items, node.Halting origin E st d)
    (steady : f.Steady origin st d s) :
    Halts origin (fun m => (E m).list f items) s (Value.There origin) := by
  apply Halts.bind (values each steady (Discipline.ownsAll_empty (D := .calm origin s.world.store)))
  intro values t settles there
  exact .change (Store.extends_addList _)
    ((Discipline.calm origin _).list_added (steady.after settles).holds there)

theorem entries {nodes : List (Node × Node)} {found : Entries}
    (each : ∀ entry ∈ nodes, entry.1.Halting origin E st d ∧ entry.2.Halting origin E st d)
    (steady : f.Steady origin st d s) (there : ∀ entry ∈ found,
      entry.1.There origin s.world.store ∧ entry.2.There origin s.world.store) :
    Halts origin (fun m => (E m).entries f nodes found) s
      fun t found => ∀ entry ∈ found, entry.1.There origin t ∧ entry.2.There origin t := by
  induction nodes generalizing found s with
  | nil => exact .pure steady there
  | cons node rest ih =>
    have ⟨onKey, onValue⟩ := each node (by simp)
    apply Halts.bind (onKey steady)
    intro key t settles thereKey
    have steady := steady.after settles
    apply Halts.bind (onValue steady)
    intro value u settles' thereValue
    have steady := steady.after settles'
    refine Halts.bind (P := (Discipline.calm origin u.world.store).ownsEntries) (.read steady
      (Discipline.owns_of_insert (fun entry inside => ?_) (settles'.there thereKey) thereValue))
      fun found r settles there => ih (fun entry inside => each entry (by simp [inside]))
        (steady.after settles) there
    have settles := settles.trans settles'
    exact ⟨settles.there (there entry inside).1, settles.there (there entry inside).2⟩

theorem dictionary {nodes : List (Node × Node)}
    (each : ∀ entry ∈ nodes, entry.1.Halting origin E st d ∧ entry.2.Halting origin E st d)
    (steady : f.Steady origin st d s) :
    Halts origin (fun m => (E m).dictionary f nodes) s (Value.There origin) := by
  apply Halts.bind (entries each steady (Discipline.ownsEntries_empty (D := .calm origin s.world.store)))
  intro found t settles there
  exact .change (Store.extends_addDictionary _)
    ((Discipline.calm origin _).dictionary_added (steady.after settles).holds there trivial)

theorem getIndex {base index : Node} (first : base.Halting origin E st d)
    (second : index.Halting origin E st d)
    (steady : f.Steady origin st d s) :
    Halts origin (fun m => (E m).getIndex f base index span) s (Value.There origin) := by
  apply Halts.bind (first steady)
  intro b t settles there
  have steady := steady.after settles
  apply Halts.bind (second steady)
  intro i u settles _
  exact .act (Discipline.getItem (steady.after settles).holds (settles.there there))

theorem member {base : Node} {name : String} (halts : base.Halting origin E st d)
    (tame : name ≠ "append") (steady : f.Steady origin st d s) :
    Halts origin (fun m => (E m).member f base name span) s (Value.There origin) := by
  apply Halts.bind (halts steady)
  intro b t settles there
  exact .act (Discipline.member (steady.after settles).holds there (absurd · tame))

theorem function {name : Option String} {params : List String} {body : List Node}
    (tame : Node.allTame body = true) (steady : f.Steady origin st d s) :
    Halts origin (fun _ => Evaluator.function f name params body span) s (Value.There origin) := by
  apply Halts.bind (.change (P := Value.There origin) (Store.extends_addFunction _)
    ((Discipline.calm origin _).function_added (f := ⟨name, params, body, f.scope⟩) steady.holds
      steady.beyond tame))
  intro value t settles there
  have steady := steady.after settles
  cases name with
  | none => exact .pure steady there
  | some name =>
    apply Halts.bind (.act (Discipline.declare steady.holds steady.beyond there))
    intro _ u settles _
    exact .pure (steady.after settles) (.of_plain rfl)

theorem block {nodes : List Node} (each : ∀ node ∈ nodes, node.Halting origin E st d)
    (steady : f.Steady origin st d s) : Halts origin (fun m => (E m).block f nodes) s anyValue := by
  induction nodes generalizing s with
  | nil => exact .pure steady trivial
  | cons node rest ih =>
    apply Halts.bind (each node (by simp) steady)
    intro _ t settles _
    exact ih (fun node inside => each node (by simp [inside])) (steady.after settles)

theorem ifElse {branches : List (Node × List Node)} {otherwise : Option (List Node)}
    (each : ∀ branch ∈ branches,
      branch.1.Halting origin E st d ∧ ∀ node ∈ branch.2, node.Halting origin E st d)
    (last : ∀ body ∈ otherwise, ∀ node ∈ body, node.Halting origin E st d)
    (steady : f.Steady origin st d s) :
    Halts origin (fun m => (E m).ifElse f branches otherwise) s (Value.There origin) := by
  induction branches generalizing s with
  | nil =>
    have onLast : ∀ node ∈ otherwise.getD [], node.Halting origin E st d := by
      cases otherwise with
      | none => exact fun _ none => absurd none List.not_mem_nil
      | some body => exact last body rfl
    apply Halts.bind (block onLast steady)
    intro _ t settles _
    exact .pure (steady.after settles) (.of_plain rfl)
  | cons branch rest ih =>
    have ⟨onTest, onBody⟩ := each branch (by simp)
    apply Halts.bind (condition onTest steady)
    intro holds t settles _
    have steady := steady.after settles
    cases holds with
    | true =>
      apply Halts.bind (block onBody steady)
      intro _ u settles _
      exact .pure (steady.after settles) (.of_plain rfl)
    | false => exact ih (fun branch inside => each branch (by simp [inside])) steady

theorem turn {body : List Node} (each : ∀ node ∈ body, node.Halting origin E st d)
    (steady : f.Steady origin st d s) :
    Halts origin (fun m => (E m).turn f body) s anyValue := by
  simp only [Evaluator.turn_eq]
  apply Halts.bind (.change (P := fun _ scope => origin.scopes.size ≤ scope)
    (Store.extends_addScope _) ((Discipline.calm origin _).scope_added steady.holds steady.beyond))
  intro scope t settles beyond
  have inner : (f.iteration scope).Steady origin st d t := { steady.after settles with beyond }
  refine (block each inner).map fun r ends => ?_
  cases ends with
  | value settles _ => exact .value settles trivial
  | @stop x _ settles final carries =>
    cases x with
    | exitLoop _ | nextTurn _ => exact .value settles trivial
    | failed _ | exitFunction _ | exhausted => exact .stop settles final carries

theorem bindItem {item : String} {itemSpan : Span} (steady : f.Steady origin st d s) :
    Halts origin (fun _ => Evaluator.bindItem f item itemSpan) s anyValue := by
  apply Halts.bind (P := anyValue) (.read steady trivial)
  intro present t settles _
  have steady := steady.after settles
  cases present with
  | true => exact .act (Discipline.assign steady.holds steady.beyond (.of_plain rfl))
  | false => exact .act (Discipline.declare steady.holds steady.beyond (.of_plain rfl))

/-- Each turn leaves fewer items in front, as no turn makes the list longer. -/
theorem forItems {item : String} {itemSpan : Span} {h : Handle} {body : List Node} (n : Nat) :
    ∀ {E : Nat → Evaluator} {s : Session} {index : Nat},
      (∀ node ∈ body, node.Halting origin E st d) → f.Steady origin st d s →
      (Value.list h).There origin s.world.store → (s.world.store.items h).size < index + n →
        Halts origin (fun m => (E m).forItems f item itemSpan h body m index) s (Value.There origin) := by
  induction n with
  | zero =>
    intro E s index each steady there left
    refine .of_succ (Halts.bind (P := fun _ value => value = none) (.read steady ?_)
      fun value t settles past => ?_)
    · exact Array.getElem?_eq_none (by omega)
    · subst past
      exact .pure (steady.after settles) (.of_plain rfl)
  | succ n ih =>
    intro E s index each steady there left
    refine .of_succ (Halts.bind (P := fun t value => ∀ v, value = some v → v.There origin t)
      (.read steady ?_) fun value t settles inside => ?_)
    · intro v found
      exact (Discipline.calm origin _).owns_item steady.holds there (Array.mem_of_getElem? found)
    have steady := steady.after settles
    cases value with
    | none => exact .pure steady (.of_plain rfl)
    | some v =>
      apply Halts.bind (.act (Discipline.assign steady.holds steady.beyond (inside v rfl)))
      intro _ u settles' _
      have steady := steady.after settles'
      have each : ∀ node ∈ body, node.Halting origin (fun m => E (m + 1)) st d :=
        fun node inside => later (each node inside) 1
      apply Halts.bind (turn each steady)
      intro goesOn r settles'' _
      have steady := steady.after settles''
      have settles := (settles.trans settles').trans settles''
      cases goesOn with
      | false => exact .pure steady (.of_plain rfl)
      | true =>
        -- the index goes up and the list is no longer than before, so fewer items are left
        have shorter := settles.holds.2.2.items there.made
        exact ih each steady (settles.there there) (by omega)

theorem forLoop {item : String} {itemSpan : Span} {iterable : Node} {body : List Node}
    (halts : iterable.Halting origin E st d) (each : ∀ node ∈ body, node.Halting origin E st d)
    (steady : f.Steady origin st d s) :
    Halts origin (fun m => (E m).forLoop f m item itemSpan iterable body) s (Value.There origin) := by
  apply Halts.bind (halts steady)
  intro value t settles there
  have steady := steady.after settles
  cases value with
  | list h =>
    apply Halts.bind (bindItem steady)
    intro _ u settles _
    exact forItems ((u.world.store.items h).size + 1) each (steady.after settles) (settles.there there)
      (by omega)
  | number _ | string _ | boolean _ | null | dictionary _ | function _ | builtIn _ | module _ =>
    exact .fail steady

theorem exitFunction {value : Option Node} (each : ∀ node ∈ value, node.Halting origin E st d)
    (steady : f.Steady origin st d s) :
    Halts origin (fun m => (E m).exitFunction f value span) s (Value.There origin) := by
  cases inside : f.inFunction with
  | false =>
    simp only [Evaluator.exitFunction, inside]
    exact .fail steady
  | true =>
    simp only [Evaluator.exitFunction, inside]
    cases value with
    | none => exact .throw steady Interrupt.final_exitFunction (.of_plain rfl)
    | some node =>
      apply Halts.bind (each node rfl steady)
      intro v t settles there
      exact .throw (steady.after settles) Interrupt.final_exitFunction there

theorem exitLoop (steady : f.Steady origin st d s) :
    Halts origin (fun _ => Evaluator.exitLoop f span) s (Value.There origin) := by
  unfold Evaluator.exitLoop
  split
  · exact .throw steady nofun trivial
  · exact .fail steady

theorem nextTurn (steady : f.Steady origin st d s) :
    Halts origin (fun _ => Evaluator.nextTurn f span) s (Value.There origin) := by
  unfold Evaluator.nextTurn
  split
  · exact .throw steady nofun trivial
  · exact .fail steady

theorem bound {node : Node} (halts : node.Halting origin E st d) (steady : f.Steady origin st d s) :
    Halts origin (fun m => (E m).bound f node) s anyValue := by
  apply Halts.bind (halts steady)
  intro value t settles _
  have steady := steady.after settles
  cases value with
  | number n =>
    cases n with
    | int n => exact .pure steady trivial
    | float _ => exact .fail steady
  | string _ | boolean _ | null | list _ | dictionary _ | function _ | builtIn _ | module _ =>
    exact .fail steady

theorem range {start stop step : Node} (first : start.Halting origin E st d)
    (second : stop.Halting origin E st d) (third : step.Halting origin E st d)
    (steady : f.Steady origin st d s) :
    Halts origin (fun m => (E m).range f start stop step span) s (Value.There origin) := by
  apply Halts.bind (bound first steady)
  intro start t settles _
  have steady := steady.after settles
  apply Halts.bind (bound second steady)
  intro stop u settles _
  have steady := steady.after settles
  apply Halts.bind (bound third steady)
  intro step r settles _
  have steady := steady.after settles
  by_cases zero : step = 0
  · simp only [zero, ↓reduceIte]
    exact .fail steady
  · simp only [zero, ↓reduceIte]
    refine .change (Store.extends_addList _)
      ((Discipline.calm origin _).list_added steady.holds fun v inside => ?_)
    exact .of_plain (Range.isPlain_of_mem_fill (by simp) v inside)

theorem bindParameters {scope : Handle} {bindings : List (String × Value)}
    (steady : f.Steady origin st d s) (beyond : origin.scopes.size ≤ scope)
    (there : ∀ binding ∈ bindings, binding.2.There origin s.world.store) :
    Halts origin (fun _ => Evaluator.bindParameters f scope span bindings) s anyValue := by
  induction bindings generalizing s with
  | nil => exact .pure steady trivial
  | cons binding rest ih =>
    apply Halts.bind (.act (Discipline.declare steady.holds beyond (there binding (by simp))))
    intro _ t settles _
    exact ih (steady.after settles) fun other inside => settles.there (there other (by simp [inside]))

theorem callFunction {g : Function} {args : List Value} {limit : Nat}
    (bodies : d < limit → ∀ node ∈ g.body, node.Halting origin E st (d + 1))
    (closure : origin.scopes.size ≤ g.closure)
    (there : ∀ v ∈ args, v.There origin s.world.store) (steady : f.Steady origin st d s) :
    Halts origin (fun m => (E m).callFunction f limit g args span) s (Value.There origin) := by
  unfold Evaluator.callFunction
  by_cases count : args.length = g.params.length
  · simp only [ne_eq, count, not_true_eq_false, ↓reduceIte]
    refine Halts.get ?_
    rw [steady.callDepth]
    by_cases full : limit ≤ d
    · simp only [full, ↓reduceIte]
      exact .fail steady
    · simp only [full, ↓reduceIte]
      apply Halts.bind (.change (P := fun _ scope => origin.scopes.size ≤ scope)
        (Store.extends_addScope _) ((Discipline.calm origin _).scope_added steady.holds closure))
      intro scope t settles beyond
      have steady := steady.after settles
      refine Halts.bind (bindParameters steady beyond fun binding inside => ?_) fun _ u settles' _ => ?_
      · exact settles.there (there _ (List.of_mem_zip inside).2)
      · have steady := steady.after settles'
        have inner : (f.enter (g.displayName ++ "()") scope true).Steady origin st (d + 1)
            ⟨u.world, u.importStack, u.callDepth + 1⟩ :=
          { steady with beyond, callDepth := by rw [steady.callDepth] }
        have same (m : Nat) : (E m).bodyValue (f.enter (g.displayName ++ "()") scope true) g.body =
            fun s => Evaluator.bodyEnd
              ((E m).block (f.enter (g.displayName ++ "()") scope true) g.body s) :=
          funext (Evaluator.bodyValue_eq _ _ _)
        simp only [same]
        -- the body is one call deeper, where all tame nodes are known to halt
        refine .nested ?_
        refine (block (bodies (Nat.lt_of_not_le full)) inner).map fun r ends => ?_
        cases ends with
        | value settles _ => exact .value settles (.of_plain rfl)
        | @stop x _ settles final carries =>
          cases x with
          | exitFunction v => exact .value settles carries
          | failed _ | exitLoop _ | nextTurn _ | exhausted => exact .stop settles final trivial
  · simp only [ne_eq, count, not_false_eq_true, ↓reduceIte]
    exact .fail steady

theorem callBuiltIn {b : BuiltIn} {args : List Value}
    (within : b.action.Within (Value.There origin s.world.store) (fun _ => False) False)
    (there : ∀ v ∈ args, v.There origin s.world.store) (steady : f.Steady origin st d s) :
    Halts origin (fun _ => Evaluator.callBuiltIn f b args span) s (Value.There origin) :=
  .ofEffect (Discipline.call steady.holds steady.beyond within there)

theorem call {callee : Node} {args : List Node} {limit : Nat} (halts : callee.Halting origin E st d)
    (each : ∀ node ∈ args, node.Halting origin E st d)
    (deeper : d < limit → ∀ node : Node, node.tame = true → node.Halting origin E st (d + 1))
    (steady : f.Steady origin st d s) :
    Halts origin (fun m => (E m).call f limit callee args span) s (Value.There origin) := by
  apply Halts.bind (halts steady)
  intro value t settles thereCallee
  have steady := steady.after settles
  apply Halts.bind (values each steady (Discipline.ownsAll_empty (D := .calm origin t.world.store)))
  intro found u settles there
  have steady := steady.after settles
  have there : ∀ v ∈ found.toList, v.There origin u.world.store :=
    fun v inside => there v (Array.mem_toList_iff.mp inside)
  have thereCallee := settles.there thereCallee
  simp only [Evaluator.callValue_eq]
  cases value with
  | function h =>
    obtain ⟨g, known⟩ : ∃ g, u.world.store.functions[h]? = some g :=
      ⟨_, Array.getElem?_eq_getElem thereCallee.since.2⟩
    have tame : Node.allTame g.body = true := steady.calm.bodies.made thereCallee.since.1 known
    have same : u.world.store.functions[h]?.getD default = g := by rw [known, Option.getD_some]
    have closure := (Discipline.calm origin _).sees_closure steady.holds thereCallee
    exact callFunction (fun below node inside => deeper below node
      (Node.allTame_iff.mp tame node (same ▸ inside))) closure there steady
  | builtIn h =>
    exact callBuiltIn ((Discipline.calm origin _).action_within steady.holds thereCallee) there steady
  | number _ | string _ | boolean _ | null | list _ | dictionary _ | module _ => exact .fail steady

theorem statements {nodes : List Node} (each : ∀ node ∈ nodes, node.Halting origin E st d)
    (steady : f.Steady origin st d s) :
    Halts origin (fun m => (E m).statements f nodes) s anyValue := by
  refine .mapInterrupt ?_ (fun x final => ?_) fun x owns _ => x.carries_escaped f
  · apply Halts.bind (values each steady (Discipline.ownsAll_empty (D := .calm origin s.world.store)))
    intro found t settles _
    exact .pure (steady.after settles) trivial
  · cases x with
    | exhausted => exact absurd rfl final
    | failed _ | exitFunction _ | exitLoop _ | nextTurn _ => nofun

theorem newRoot {trace : List String} (steady : f.Steady origin st d s) :
    Halts origin (fun _ => Eval.newRoot trace span) s fun _ scope => origin.scopes.size ≤ scope := by
  have ⟨holds, beyond⟩ := (Discipline.calm origin s.world.store).root_added steady.holds
  refine .of_ends ?_
  rw [Eval.newRoot_eq]
  exact .value ⟨holds, Store.extends_withRoot, rfl, rfl⟩ beyond

abbrev thereExports (origin s : Store) (exports : List Export) : Prop :=
  ∀ e ∈ exports, e.value.There origin s

theorem runModule {name text : String} {path canonical : Path}
    (each : ∀ nodes, Node.ofText path.text text = .ok nodes →
      ∀ node ∈ nodes, node.Halting origin E (canonical :: st) d)
    (steady : f.Steady origin st d s) :
    Halts origin (fun m => (E m).runModule f name path canonical text span) s
      (thereExports origin) := by
  refine .mapInterrupt ?_ (fun x final => ?_) fun x owns => x.carries_withNote _
  · have parsed : Halts origin (fun _ => Eval.parse path.text text) s
        fun _ nodes => Node.ofText path.text text = .ok nodes := by
      unfold Eval.parse
      cases found : Node.ofText path.text text with
      | ok nodes => exact .pure steady rfl
      | error _ => exact .throw steady Interrupt.final_failed trivial
    apply Halts.bind parsed
    intro nodes t settles found
    have steady := steady.after settles
    apply Halts.bind (newRoot steady)
    intro scope u settles beyond
    have steady := steady.after settles
    -- the statements run with one more file active, in a scope that has just been made
    have inner : (f.enter (moduleEntry name) scope false).Steady origin (canonical :: st) d
        ⟨u.world, canonical :: u.importStack, u.callDepth⟩ :=
      { steady with beyond, importStack := by rw [steady.importStack] }
    apply Halts.bind (Halts.within (statements (each nodes found) inner))
    intro _ r settles _
    have steady := steady.after settles
    refine .read steady fun e inside => ?_
    obtain ⟨slot, found, rfl⟩ := List.mem_map.mp inside
    exact (Discipline.calm origin _).owns_export steady.holds beyond found
  · cases x with
    | exhausted => exact absurd rfl final
    | failed _ | exitFunction _ | exitLoop _ | nextTurn _ => nofun

def ModulesHalt (origin : Store) (host : Host) (E : Nat → Evaluator) (st : List Path) (d : Nat) :
    Prop :=
  ∀ path text nodes, host.files.read path = .ok text → Node.ofText path.text text = .ok nodes →
    (∀ p ∈ st, p.same (host.files.canonical path) = false) →
      ∀ node ∈ nodes, node.Halting origin E (host.files.canonical path :: st) d

theorem loadFile {host : Host} {name : String} {path : Path}
    (modules : ModulesHalt origin host E st d) (steady : f.Steady origin st d s) :
    Halts origin (fun m => (E m).loadFile f host name path span) s (thereExports origin) := by
  refine Halts.get ?_
  rw [steady.importStack]
  cases circular : st.any (·.same (host.files.canonical path)) with
  | true =>
    simp only [circular, ↓reduceIte]
    exact .fail steady
  | false =>
    simp only [circular, Bool.false_eq_true, ↓reduceIte]
    cases found : host.files.read path with
    | error reason => exact .fail steady
    | ok text =>
      have absent : ∀ p ∈ st, p.same (host.files.canonical path) = false := fun p inside => by
        simpa using List.any_eq_false.mp circular p inside
      exact runModule (fun nodes parsed => modules path text nodes found parsed absent) steady

theorem bindExports {exports : List Export} (steady : f.Steady origin st d s)
    (there : thereExports origin s.world.store exports) :
    Halts origin (fun _ => Evaluator.bindExports f span exports) s anyValue := by
  induction exports generalizing s with
  | nil => exact .pure steady trivial
  | cons e rest ih =>
    apply Halts.bind (.act (Discipline.declare steady.holds steady.beyond (there e (by simp))))
    intro _ t settles _
    exact ih (steady.after settles) fun other inside => settles.there (there other (by simp [inside]))

theorem bindModule {binding name : String} {exports : List Export} (steady : f.Steady origin st d s)
    (there : thereExports origin s.world.store exports) :
    Halts origin (fun _ => Evaluator.bindModule f binding name exports span) s anyValue := by
  have added := (Discipline.calm origin s.world.store).module_added
    (m := ⟨name, exports.map fun e => (e.name, e.value)⟩) steady.holds fun entry inside => by
      obtain ⟨e, found, rfl⟩ := List.mem_map.mp inside
      exact there e found
  apply Halts.bind (.change (P := Value.There origin) (Store.extends_addModule _) added)
  intro value t settles there
  have steady := steady.after settles
  exact .act (Discipline.declare steady.holds steady.beyond there)

theorem importModule {host : Host} {module : Node} {binding : Option ImportAlias}
    (halts : module.Halting origin E st d) (natives : host.natives = Registry.standard)
    (modules : ModulesHalt origin host E st d) (steady : f.Steady origin st d s) :
    Halts origin (fun m => (E m).importModule f host module binding span) s (Value.There origin) := by
  apply Halts.bind (halts steady)
  intro value t settles _
  have steady := steady.after settles
  cases value with
  | string name =>
    -- binding what has been found is the same for files and native modules
    have bound {exports : List Export} {u : Session} (steady : f.Steady origin st d u)
        (there : thereExports origin u.world.store exports) :
        Halts origin (fun _ => Evaluator.bindImport f binding name exports span) u
          (Value.There origin) := by
      have done {r : Session} (settles : u.Settles origin r) :
          Halts origin (fun _ => (pure .null : Eval Value)) r (Value.There origin) :=
        .pure (steady.after settles) (.of_plain rfl)
      cases binding with
      | none => exact Halts.bind (bindModule steady there) fun _ _ settles _ => done settles
      | some chosen =>
        cases chosen with
        | wildcard => exact Halts.bind (bindExports steady there) fun _ _ settles _ => done settles
        | name chosen => exact Halts.bind (bindModule steady there) fun _ _ settles _ => done settles
    have directory : Halts origin (fun _ => Evaluator.scriptDirectory?) t anyValue :=
      .of_ends (.value steady.settles trivial)
    refine Halts.bind directory fun directory u settles _ => ?_
    have steady := steady.after settles
    cases found : host.resolve? directory name with
    | none =>
      simp only
      exact .fail steady
    | some source =>
      cases source with
      | file path =>
        exact Halts.bind (loadFile modules steady) fun exports r settles there =>
          bound (steady.after settles) there
      | native m =>
        have known : m ∈ Registry.standard := natives ▸ Host.native_mem_of_resolve? found
        exact Halts.bind (.act (Discipline.exports steady.holds
          (Discipline.calm_admits origin _) known)) fun exports r settles there =>
            bound (steady.after settles) there
  | number _ | boolean _ | null | list _ | dictionary _ | function _ | builtIn _ | module _ =>
    exact .fail steady

end Node.Halting

end BasicScript
