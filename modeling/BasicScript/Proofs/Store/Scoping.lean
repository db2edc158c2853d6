import BasicScript.Proofs.Store.Discipline
import Mathlib.Data.List.Nodup

/-! What may become of scopes. A slot stays where it is, a constant keeps its value, and only the
scopes in which code runs get further slots. This is a discipline, so every operation keeps it. -/

set_option autoImplicit false

namespace BasicScript

/-- What may become of a slot: a variable may get another value, a constant may not. -/
structure Slot.Becomes (before after : Slot) : Prop where
  name : after.name = before.name
  constant : after.constant = before.constant
  builtIn : after.builtIn = before.builtIn
  value : before.constant = true → after.value = before.value

namespace Slot.Becomes

variable {before after : Slot}

theorem refl (slot : Slot) : slot.Becomes slot := ⟨rfl, rfl, rfl, fun _ => rfl⟩

theorem put (becomes : before.Becomes after) (value : Value) (free : after.constant = false) :
    before.Becomes { after with value } where
  name := becomes.name
  constant := becomes.constant
  builtIn := becomes.builtIn
  value isConstant := by
    rw [← becomes.constant, free] at isConstant
    cases isConstant

theorem eq_of_constant (becomes : before.Becomes after) (isConstant : before.constant = true) :
    after = before := by
  obtain ⟨name, value, constant, builtIn⟩ := after
  cases becomes.name
  cases becomes.constant
  cases becomes.builtIn
  cases becomes.value isConstant
  rfl

end Slot.Becomes

/-- What may become of a scope: each slot stays in its place, and those that a script declares come
behind them if the scope `grows`. -/
structure Scope.Becomes (grows : Prop) (before after : Scope) : Prop where
  parent : after.parent = before.parent
  kept {i : Nat} {slot : Slot} : before.slots[i]? = some slot →
    ∃ later, after.slots[i]? = some later ∧ slot.Becomes later
  gained {i : Nat} {slot : Slot} : before.slots.length ≤ i → after.slots[i]? = some slot →
    grows ∧ slot.builtIn = false

namespace Scope

def Distinct (scope : Scope) : Prop := (scope.slots.map Slot.name).Nodup

theorem names_distinct (scope : Scope) : scope.Distinct := scope.names_nodup

variable {grows : Prop} {before after scope : Scope} {slot : Slot} {name : String}

/-- If the slot that a name means is a variable, so is every slot of that name: it is the same. -/
theorem free_of_slot? (free : (scope.slot? name).any (·.constant) = false) :
    ∀ slot ∈ scope.slots, slot.name = name → slot.constant = false := by
  rintro slot inside rfl
  simpa [mem_slots.mp inside] using free

namespace Becomes

theorem refl (scope : Scope) : scope.Becomes grows scope where
  parent := rfl
  kept found := ⟨_, found, .refl _⟩
  gained beyond found := by
    rw [List.getElem?_eq_none beyond] at found
    cases found

theorem insert (becomes : before.Becomes grows after) (may : grows)
    (declared : slot.builtIn = false) (absent : after.declares slot.name = false) :
    before.Becomes grows (after.insert slot) where
  parent := becomes.parent
  kept found := by
    obtain ⟨later, found, becomes⟩ := becomes.kept found
    have inside := (List.getElem?_eq_some_iff.mp found).1
    exact ⟨later, by rw [slots_insert absent, List.getElem?_append_left inside, found], becomes⟩
  gained {i x} beyond found := by
    rw [slots_insert absent, List.getElem?_append] at found
    split at found
    · exact becomes.gained beyond found
    · have last : x = slot := List.mem_singleton.mp (List.mem_of_getElem? found)
      exact ⟨may, last ▸ declared⟩

theorem put (becomes : before.Becomes grows after) (value : Value)
    (free : ∀ slot ∈ after.slots, slot.name = name → slot.constant = false) :
    before.Becomes grows (after.put name value) where
  parent := becomes.parent
  kept {i slot} found := by
    obtain ⟨later, found, becomes⟩ := becomes.kept found
    simp only [slots_put, List.getElem?_map, found, Option.map_some]
    refine ⟨_, rfl, ?_⟩
    split
    case isTrue named => exact becomes.put value (free later (List.mem_of_getElem? found) named)
    case isFalse => exact becomes
  gained {i slot} beyond found := by
    simp only [slots_put, List.getElem?_map, Option.map_eq_some_iff] at found
    obtain ⟨later, found, rfl⟩ := found
    have gained := becomes.gained beyond found
    split <;> exact gained

/-- A scope of constants keeps its slots, and what comes behind them has been declared. -/
theorem slots_eq (becomes : before.Becomes grows after)
    (constant : ∀ slot ∈ before.slots, slot.constant = true) :
    ∃ declared, after.slots = before.slots ++ declared ∧
      ∀ slot ∈ declared, slot.builtIn = false := by
  refine ⟨after.slots.drop before.slots.length, ?_, fun slot inside => ?_⟩
  · refine (List.take_append_drop before.slots.length after.slots).symm.trans ?_
    -- the first slots are the constants of before, slot by slot
    congr 1
    refine List.ext_getElem? fun i => ?_
    rw [List.getElem?_take]
    cases found : before.slots[i]? with
    | some slot =>
      obtain ⟨later, there, becomes⟩ := becomes.kept found
      rw [if_pos (List.getElem?_eq_some_iff.mp found).1, there,
        becomes.eq_of_constant (constant slot (List.mem_of_getElem? found))]
    | none => rw [if_neg (Nat.not_lt.mpr (List.getElem?_eq_none_iff.mp found))]
  · obtain ⟨i, there⟩ := List.mem_iff_getElem?.mp inside
    rw [List.getElem?_drop] at there
    exact (becomes.gained (Nat.le_add_right _ i) there).2

end Becomes

end Scope

namespace Store

variable {s t : Store} {h : Handle}

def Distinct (s : Store) : Prop := ∀ h, (s.scope h).Distinct

theorem distinct (s : Store) : s.Distinct := fun h => (s.scope h).names_distinct

/-- What may become of the scopes of a store: none goes, and those that `may` get slots. -/
structure Becomes (may : Handle → Prop) (s t : Store) : Prop where
  distinct : t.Distinct
  size : s.scopes.size ≤ t.scopes.size
  scopes {h : Handle} : h < s.scopes.size → (s.scope h).Becomes (may h) (t.scope h)

theorem scope_push {x : Scope} (pushed : t.scopes = s.scopes.push x) (i : Handle) :
    t.scope i = if i = s.scopes.size then x else s.scope i := by
  simp only [scope, pushed, Array.getElem?_push]
  split <;> rfl

theorem scope_setScope (update : Scope → Scope) (i : Handle) :
    (s.setScope h update).scope i =
      if h = i ∧ i < s.scopes.size then update (s.scope i) else s.scope i := by
  simp only [scope, setScope_scopes, Array.getElem?_modify]
  grind

namespace Becomes

variable {may : Handle → Prop}

theorem refl (s : Store) : s.Becomes may s := ⟨s.distinct, Nat.le_refl _, fun _ => .refl _⟩

theorem same_scopes {u : Store} (becomes : s.Becomes may t) (same : u.scopes = t.scopes) :
    s.Becomes may u := by
  have view (h : Handle) : u.scope h = t.scope h := by simp only [scope, same]
  refine ⟨u.distinct, same ▸ becomes.size, fun inside => ?_⟩
  rw [view]
  exact becomes.scopes inside

theorem push {u : Store} {x : Scope} (becomes : s.Becomes may t)
    (pushed : u.scopes = t.scopes.push x) : s.Becomes may u where
  distinct := u.distinct
  size := by
    have := becomes.size
    simp only [pushed, Array.size_push]
    omega
  scopes {h} inside := by
    have older : h ≠ t.scopes.size := Nat.ne_of_lt (Nat.lt_of_lt_of_le inside becomes.size)
    rw [scope_push pushed, if_neg older]
    exact becomes.scopes inside

theorem setScope {update : Scope → Scope} (becomes : s.Becomes may t)
    (changed : h < s.scopes.size → (s.scope h).Becomes (may h) (t.scope h) →
      (s.scope h).Becomes (may h) (update (t.scope h))) :
    s.Becomes may (t.setScope h update) where
  distinct := (t.setScope h update).distinct
  size := by simpa using becomes.size
  scopes {i} inside := by
    rw [scope_setScope]
    split
    case isTrue here =>
      obtain ⟨rfl, _⟩ := here
      exact changed inside (becomes.scopes inside)
    case isFalse => exact becomes.scopes inside

end Becomes

end Store

theorem BuiltIn.rootSlots_fixed (first : Handle) :
    ∀ slot ∈ rootSlots first, slot.constant = true ∧ slot.builtIn = true := by
  intro slot inside
  rcases List.mem_append.mp inside with inside | inside
  · obtain ⟨entry, _, rfl⟩ := List.mem_map.mp inside
    exact ⟨rfl, rfl⟩
  · obtain ⟨i, _, rfl⟩ := List.mem_mapIdx.mp inside
    exact ⟨rfl, rfl⟩

/-- Scopes become only what they may, if code runs in those that `may` get slots and in new ones. -/
def Discipline.scoping (began : Store) (may : Handle → Prop) : Discipline where
  holds s := began.Becomes may s
  owns _ _ := True
  sees _ _ := True
  runs _ h := may h ∨ began.scopes.size ≤ h
  trusts _ := True
  raises _ := True
  bodies _ := True
  mutates := True
  allows _ := True
  owns_mono _ _ := trivial
  runs_mono _ := id
  sees_of_runs _ := trivial
  owns_plain _ := trivial
  owns_variable _ _ _ := trivial
  owns_export _ _ _ := trivial
  owns_item _ _ _ := trivial
  owns_entry _ _ _ := ⟨trivial, trivial⟩
  owns_member _ _ _ := trivial
  sees_closure _ _ := trivial
  action_within _ _ := within_anything _
  owns_answer _ _ _ _ := trivial
  raises_runtime _ := trivial
  raises_refusal _ _ := trivial
  root_added holds := ⟨holds.push rfl, .inr holds.size⟩
  scope_added holds _ := ⟨holds.push rfl, .inr holds.size⟩
  list_added holds _ := ⟨holds.same_scopes rfl, trivial⟩
  dictionary_added holds _ _ := ⟨holds.same_scopes rfl, trivial⟩
  function_added holds _ _ := ⟨holds.same_scopes rfl, trivial⟩
  builtIn_added holds _ := ⟨holds.same_scopes rfl, trivial⟩
  module_added holds _ := ⟨holds.same_scopes rfl, trivial⟩
  items_changed holds _ _ _ _ := holds.same_scopes rfl
  entries_changed holds _ _ _ _ := holds.same_scopes rfl
  slot_added {s h slot} holds runs _ declared absent := by
    -- either this scope may get slots, or it was not there when the run began
    refine holds.setScope fun inside becomes => ?_
    exact becomes.insert (runs.resolve_right (Nat.not_le.mpr inside)) declared absent
  slot_changed {s h owner name v} holds _ _ _ free := by
    exact holds.setScope fun _ becomes => becomes.put v (Scope.free_of_slot? free)

instance (began : Store) (may : Handle → Prop) : (Discipline.scoping began may).Free :=
  ⟨fun _ => trivial, trivial⟩

instance (began : Store) (may : Handle → Prop) : (Discipline.scoping began may).Lax :=
  ⟨fun _ => trivial⟩

end BasicScript
