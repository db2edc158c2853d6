import BasicScript.Proofs.Store.Discipline

/-! The operations on values and the acts on scopes keep every discipline: from values that a run
owns they make values that it owns, and they leave a store that the discipline allows. -/

set_option autoImplicit false

namespace BasicScript

theorem Entries.forall_put {P : Value → Prop} {entries : Entries} {position : Option Nat} {key value : Value}
    (all : ∀ entry ∈ entries, P entry.1 ∧ P entry.2) (key_fits : P key) (value_fits : P value) :
    ∀ entry ∈ entries.put position key value, P entry.1 ∧ P entry.2 := by
  intro entry found
  unfold Entries.put at found
  split at found
  case h_2 =>
    rcases Array.mem_push.mp found with found | rfl
    · exact all entry found
    · exact ⟨key_fits, value_fits⟩
  case h_1 =>
    obtain ⟨j, bound, rfl⟩ := Array.mem_iff_getElem.mp found
    have bound' : j < entries.size := by simpa using bound
    have old := all entries[j] (Array.getElem_mem bound')
    rw [Array.getElem_modify]
    split
    · exact ⟨old.1, value_fits⟩
    · exact old

namespace Value

theorem isPlain_of_arithmetic {operator : BinaryOperator}
    {onNumbers : Number → Number → Except Fault Number} {a b v : Value}
    (found : arithmetic operator onNumbers a b = .ok v) : v.isPlain = true := by
  unfold arithmetic at found
  split at found
  · rename_i m n _ _
    cases answer : onNumbers m n with
    | ok number => rw [answer] at found; cases found; rfl
    | error fault => rw [answer] at found; cases found
  · cases found

theorem isPlain_of_repeatText {text : String} {count : Int64} {v : Value}
    (found : repeatText text count = .ok v) : v.isPlain = true := by
  simp only [repeatText] at found
  split at found
  · obtain rfl := Except.ok.inj found
    rfl
  · simp at found

theorem isPlain_of_multiply {a b v : Value} (found : multiply a b = .ok v) :
    v.isPlain = true := by
  unfold multiply at found
  split at found
  · split at found
    · exact isPlain_of_repeatText found
    · cases found
  · split at found
    · exact isPlain_of_repeatText found
    · cases found
  · exact isPlain_of_arithmetic found

theorem isPlain_of_compare {operator : BinaryOperator} {test : Number → Number → Bool}
    {a b v : Value} (found : compare operator test a b = .ok v) : v.isPlain = true := by
  unfold compare at found
  split at found
  · cases found; rfl
  · cases found

theorem isPlain_of_unary {operator : UnaryOperator} {onNumber : Number → Number} {a v : Value}
    (found : a.unary operator onNumber = .ok v) : v.isPlain = true := by
  unfold unary at found
  split at found
  · cases found; rfl
  · cases found

end Value

theorem Store.isPlain_of_unary {s : Store} {operator : UnaryOperator} {a v : Value}
    (found : s.unary operator a = .ok v) : v.isPlain = true := by
  cases operator with
  | plus => exact Value.isPlain_of_unary found
  | negate => exact Value.isPlain_of_unary found
  | not =>
    simp only [Store.unary] at found
    cases truth : s.truth a with
    | ok b => rw [truth] at found; cases found; rfl
    | error fault => rw [truth] at found; cases found

namespace Discipline

variable {D : Discipline} {s : Store}

section Acts

variable {α : Type} {P : Store → α → Prop}

theorem raises_of_refuses {result : Except Fault α} (refuses : Refuses result) :
    ∀ fault, result = .error fault → D.raises fault :=
  fun fault refused => D.raises_runtime (refuses fault refused)

theorem lift {result : Except Fault α} (holds : D.holds s)
    (raised : ∀ fault, result = .error fault → D.raises fault)
    (fits : ∀ a, result = .ok a → P s a) : D.SoundAct s P (Act.lift result s) := by
  cases result with
  | ok a => exact .value holds (.refl s) (fits a rfl)
  | error fault => exact .fault holds (.refl s) (raised fault rfl)

theorem readExcept {view : Store → Except Fault α} (holds : D.holds s)
    (refuses : Refuses (view s)) (fits : ∀ a, view s = .ok a → P s a) :
    D.SoundAct s P (Act.readExcept view s) :=
  lift holds (raises_of_refuses refuses) fits

theorem read {view : Store → α} (holds : D.holds s) (fits : P s (view s)) :
    D.SoundAct s P (Act.read view s) :=
  .value holds (.refl s) fits

/-- A value found by arithmetic is no handle. -/
theorem lift_plain {result : Except Fault Value} (holds : D.holds s) (refuses : Refuses result)
    (plain : ∀ v, result = .ok v → v.isPlain = true) :
    D.SoundAct s D.owns (Act.lift result s) :=
  lift holds (raises_of_refuses refuses) fun v found => D.owns_plain (plain v found)

end Acts

theorem newList {items : Array Value} (holds : D.holds s) (owned : ∀ v ∈ items, D.owns s v) :
    D.SoundAct s D.owns ((modifyGet (·.addList items) : Act Value) s) :=
  have ⟨holds', owns⟩ := D.list_added holds owned
  .value holds' (Store.extends_addList items) owns

theorem newDictionary [D.Lax] {entries : Entries} (holds : D.holds s)
    (owned : ∀ entry ∈ entries, D.owns s entry.1 ∧ D.owns s entry.2) :
    D.SoundAct s D.owns ((modifyGet (·.addDictionary entries) : Act Value) s) :=
  have ⟨holds', owns⟩ := D.dictionary_added holds owned (Lax.allows _)
  .value holds' (Store.extends_addDictionary entries) owns

theorem newBuiltIn {b : BuiltIn} (holds : D.holds s)
    (within : b.action.Within (D.owns s) D.trusts D.mutates) :
    D.SoundAct s D.owns ((modifyGet (·.addBuiltIn b) : Act Value) s) :=
  have ⟨holds', owns⟩ := D.builtIn_added holds within
  .value holds' (Store.extends_addBuiltIn b) owns

theorem add {a b : Value} (holds : D.holds s) (left : D.owns s a) (right : D.owns s b) :
    D.SoundAct s D.owns (Store.add a b s) := by
  unfold Store.add
  split
  · exact .value holds (.refl s) (D.owns_plain rfl)
  · rename_i x y
    apply Sound.bind (read (P := fun t items => t = s ∧ items = s.items x ++ s.items y)
      holds ⟨rfl, rfl⟩)
    intro items t _ _ same
    obtain ⟨rfl, rfl⟩ := same
    refine newList holds fun v found => ?_
    rcases Array.mem_append.mp found with found | found
    · exact D.owns_item holds left found
    · exact D.owns_item holds right found
  · exact lift_plain holds (Value.refuses_arithmetic fun _ _ => .ok _)
      fun v => Value.isPlain_of_arithmetic

theorem binary {operator : BinaryOperator} {a b : Value} (holds : D.holds s)
    (left : D.owns s a) (right : D.owns s b) :
    D.SoundAct s D.owns (Store.binary operator a b s) := by
  cases operator with
  | add => exact add holds left right
  | multiply =>
    exact lift_plain holds Value.refuses_multiply fun v => Value.isPlain_of_multiply
  | subtract =>
    exact lift_plain holds (Value.refuses_arithmetic fun _ _ => .ok _)
      fun v => Value.isPlain_of_arithmetic
  | divide =>
    exact lift_plain holds (Value.refuses_arithmetic Number.refuses_div)
      fun v => Value.isPlain_of_arithmetic
  | power =>
    exact lift_plain holds (Value.refuses_arithmetic Number.refuses_pow)
      fun v => Value.isPlain_of_arithmetic
  | modulo =>
    exact lift_plain holds (Value.refuses_arithmetic Number.refuses_rem)
      fun v => Value.isPlain_of_arithmetic
  | equal => exact .value holds (.refl s) (D.owns_plain rfl)
  | notEqual => exact .value holds (.refl s) (D.owns_plain rfl)
  | greater | less | greaterEqual | lessEqual =>
    exact lift_plain holds Value.refuses_compare fun v => Value.isPlain_of_compare

theorem unary {operator : UnaryOperator} {a : Value} (holds : D.holds s) :
    D.SoundAct s D.owns (Act.readExcept (·.unary operator a) s) :=
  lift_plain holds Store.refuses_unary fun _ => Store.isPlain_of_unary

theorem owns_of_getItem {base index v : Value} (holds : D.holds s) (owned : D.owns s base)
    (found : s.getItem base index = .ok v) : D.owns s v := by
  cases base with
  | string text =>
    simp only [Store.getItem] at found
    cases place : index.position .string text.length with
    | ok i => rw [place] at found; cases found; exact D.owns_plain rfl
    | error fault => rw [place] at found; cases found
  | list h =>
    simp only [Store.getItem] at found
    cases place : index.position .list (s.items h).size with
    | error fault => rw [place] at found; cases found
    | ok i =>
      rw [place] at found
      cases found
      cases item : (s.items h)[i]? with
      | none => exact D.owns_plain rfl
      | some v => exact D.owns_item holds owned (Array.mem_of_getElem? item)
  | dictionary h =>
    simp only [Store.getItem, Store.valueAt?, Entries.find?] at found
    split at found
    · rename_i value held
      cases found
      obtain ⟨entry, inside, rfl⟩ := Option.map_eq_some_iff.mp held
      exact (D.owns_entry holds owned (Array.mem_of_find?_eq_some inside)).2
    · cases found
  | number _ | boolean _ | null | function _ | builtIn _ | module _ => cases found

theorem getItem {base index : Value} (holds : D.holds s) (owned : D.owns s base) :
    D.SoundAct s D.owns (Act.readExcept (·.getItem base index) s) :=
  readExcept holds Store.refuses_getItem fun _ => owns_of_getItem holds owned

theorem owns_of_put {entries : Entries} {position : Option Nat} {key value : Value}
    (owned : ∀ entry ∈ entries, D.owns s entry.1 ∧ D.owns s entry.2)
    (ownsKey : D.owns s key) (ownsValue : D.owns s value) :
    ∀ entry ∈ Entries.put entries position key value, D.owns s entry.1 ∧ D.owns s entry.2 :=
  Entries.forall_put owned ownsKey ownsValue

theorem setItem [D.LaxLists] {base index value : Value} (holds : D.holds s)
    (ownsBase : D.owns s base) (ownsIndex : D.owns s index) (ownsValue : D.owns s value)
    (mutates : D.mutates) (allows : ∀ h, base = .dictionary h → D.allows (s.setEntries h fun entries =>
      Entries.put entries (s.position? (s.entries h) index) index value)) :
    D.SoundAct s anything (Store.setItem base index value s) := by
  cases base with
  | list h =>
    apply Sound.bind (P := fun t _ => t = s) (read holds rfl)
    intro length t _ _ same
    subst same
    apply Sound.bind (P := fun u _ => u = t)
      (lift holds (raises_of_refuses Value.refuses_position) fun _ _ => rfl)
    intro i u _ _ same
    subst same
    refine .value (D.items_changed holds ownsBase (fun v found => ?_) (.inl mutates)
      (LaxLists.allows_items holds)) (Store.extends_setItems _) trivial
    rcases Array.mem_or_eq_of_mem_setIfInBounds found with found | rfl
    · exact D.owns_item holds ownsBase found
    · exact ownsValue
  | dictionary h =>
    apply Sound.bind (P := fun t position => t = s ∧ position = s.position? (s.entries h) index)
      (read holds ⟨rfl, rfl⟩)
    intro position t _ _ same
    obtain ⟨rfl, rfl⟩ := same
    exact .value (D.entries_changed holds ownsBase
      (owns_of_put (fun _ => D.owns_entry holds ownsBase) ownsIndex ownsValue) mutates
      (allows h rfl)) (Store.extends_setEntries _) trivial
  | number _ | string _ | boolean _ | null | function _ | builtIn _ | module _ =>
    exact .fault holds (.refl s) (D.raises_runtime rfl)

/-- A method holds its receiver and nothing else. -/
theorem within_of_method? {receiver : Value} {name : String} {b : BuiltIn}
    (owned : D.owns s receiver) (permitted : name = "append" → D.mutates)
    (found : BuiltIn.method? receiver name = some b) :
    b.action.Within (D.owns s) D.trusts D.mutates := by
  unfold BuiltIn.method? at found
  split at found
  · unfold BuiltIn.numberMethod? at found
    split at found <;> cases found <;> trivial
  · unfold BuiltIn.sequenceMethod? at found
    split at found <;> cases found <;> exact owned
  · unfold BuiltIn.listMethod? BuiltIn.sequenceMethod? at found
    split at found
    · cases found; exact ⟨owned, permitted rfl⟩
    · cases found; exact owned
    · split at found <;> cases found <;> exact owned
  · unfold BuiltIn.dictionaryMethod? at found
    split at found <;> cases found <;> exact owned
  · cases found

theorem member {receiver : Value} {name : String} (holds : D.holds s)
    (owned : D.owns s receiver) (permitted : name = "append" → D.mutates) :
    D.SoundAct s D.owns (Store.attribute receiver name s) := by
  unfold Store.attribute
  split
  · rename_i h
    apply Sound.bind (P := fun t found => t = s ∧ found = (s.modules[h]?.getD default).get? name)
      (read holds ⟨rfl, rfl⟩)
    intro found t _ _ same
    obtain ⟨rfl, rfl⟩ := same
    cases found : (t.modules[h]?.getD default).get? name with
    | none => exact .fault holds (.refl t) (D.raises_runtime rfl)
    | some value => exact .value holds (.refl t) (D.owns_member holds owned found)
  · cases found : BuiltIn.method? receiver name with
    | none => exact .fault holds (.refl s) (D.raises_runtime rfl)
    | some method => exact newBuiltIn holds (within_of_method? owned permitted found)

theorem declare {h : Handle} {name : String} {v : Value} {constant : Bool} (holds : D.holds s)
    (runs : D.runs s h) (owned : D.owns s v) :
    D.SoundAct s anything (Store.declare h name v constant s) := by
  unfold Store.declare Store.declareSlot
  split
  · exact .fault holds (.refl s) (D.raises_runtime rfl)
  · rename_i absent
    exact .value (D.slot_added holds runs owned rfl (Bool.not_eq_true _ |>.mp absent))
      (Store.extends_setScope _) trivial

theorem assign {h : Handle} {name : String} {v : Value} (holds : D.holds s) (sees : D.sees s h)
    (owned : D.owns s v) : D.SoundAct s anything (Store.assign h name v s) := by
  rw [Store.assign_eq]
  split
  · exact .fault holds (.refl s) (D.raises_runtime rfl)
  · rename_i owner found
    unfold Store.assignIn
    split
    · exact .fault holds (.refl s) (D.raises_runtime rfl)
    · rename_i free
      exact .value (D.slot_changed holds sees owned found (Bool.not_eq_true _ |>.mp free))
        (Store.extends_setScope _) trivial

end Discipline

end BasicScript
