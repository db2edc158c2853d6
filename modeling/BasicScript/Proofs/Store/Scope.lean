import BasicScript.Store.Scope
import Mathlib.Data.List.Basic

/-! Scopes as lists of slots. A scope keeps its variables by name and the names in order; what it
has under a name is the slot of that name, adding a slot appends it, and a new value changes one
slot in its place. -/

set_option autoImplicit false

namespace BasicScript

namespace Scope

variable {scope : Scope} {slot : Slot} {name other : String} {value : Value} {slots : List Slot}

theorem declares_iff : scope.declares name = true ↔ name ∈ scope.order := by
  rw [declares, Std.TreeMap.contains_iff_mem, scope.listed]

theorem isSome_slot? : (scope.slot? name).isSome = scope.declares name := by
  rw [slot?, Option.isSome_map, declares, Std.TreeMap.isSome_getElem?_eq_contains]

theorem slot?_eq_none_iff : scope.slot? name = none ↔ scope.declares name = false := by
  rw [← isSome_slot?, Option.isSome_eq_false_iff, Option.isNone_iff_eq_none]

theorem name_of_slot? (found : scope.slot? name = some slot) : slot.name = name := by
  obtain ⟨_, _, rfl⟩ := Option.map_eq_some_iff.mp found
  rfl

theorem mem_slots : slot ∈ scope.slots ↔ scope.slot? slot.name = some slot := by
  rw [slots, List.mem_filterMap]
  constructor
  · rintro ⟨name, _, found⟩
    rw [name_of_slot? found]
    exact found
  · intro found
    refine ⟨slot.name, declares_iff.mp ?_, found⟩
    rw [← isSome_slot?, found]
    rfl

theorem names_slots (scope : Scope) : scope.slots.map Slot.name = scope.order := by
  have each : ∀ name ∈ scope.order, ((scope.slot? name).map Slot.name) = some name := by
    intro name inside
    obtain ⟨slot, found⟩ := Option.isSome_iff_exists.mp
      (isSome_slot?.trans (declares_iff.mpr inside))
    rw [found, Option.map_some, name_of_slot? found]
  rw [slots, List.map_filterMap]
  exact (List.filterMap_congr each).trans List.filterMap_some

theorem names_nodup (scope : Scope) : (scope.slots.map Slot.name).Nodup := by
  rw [names_slots]
  exact scope.distinct

/-! ### Adding slots -/

@[simp] theorem slots_empty (parent : Option Handle) : (empty parent).slots = [] := rfl

@[simp] theorem declares_empty (parent : Option Handle) (name : String) :
    (empty parent).declares name = false :=
  Bool.eq_false_iff.mpr fun declared => (nomatch declares_iff.mp declared)

@[simp] theorem parent_insert (scope : Scope) (slot : Slot) :
    (scope.insert slot).parent = scope.parent := rfl

theorem order_insert (absent : scope.declares slot.name = false) :
    (scope.insert slot).order = scope.order ++ [slot.name] :=
  if_neg (Bool.eq_false_iff.mp absent)

theorem slot?_insert (scope : Scope) (slot : Slot) (name : String) :
    (scope.insert slot).slot? name = if slot.name = name then some slot else scope.slot? name := by
  rw [insert, slot?, Std.TreeMap.getElem?_insert]
  simp only [Std.compare_eq_iff_eq]
  split
  case isTrue same => exact congrArg some (same ▸ rfl)
  case isFalse => rfl

theorem slots_insert (absent : scope.declares slot.name = false) :
    (scope.insert slot).slots = scope.slots ++ [slot] := by
  have fresh : slot.name ∉ scope.order := fun found =>
    Bool.eq_false_iff.mp absent (declares_iff.mpr found)
  rw [slots, order_insert absent, List.filterMap_append, slots]
  congr 1
  · refine List.filterMap_congr fun name inside => ?_
    have other : slot.name ≠ name := fun same => fresh (same ▸ inside)
    rw [slot?_insert, if_neg other]
  · have here : (scope.insert slot).slot? slot.name = some slot := by rw [slot?_insert, if_pos rfl]
    rw [List.filterMap_cons_some here, List.filterMap_nil]

theorem forall_slots_insert {P : Slot → Prop} (all : ∀ slot ∈ scope.slots, P slot) (new : P slot) :
    ∀ x ∈ (scope.insert slot).slots, P x := by
  intro x inside
  rw [mem_slots, slot?_insert] at inside
  split at inside
  · exact Option.some.inj inside ▸ new
  · exact all x (mem_slots.mpr inside)

def extend (scope : Scope) (slots : List Slot) : Scope := slots.foldl insert scope

@[simp] theorem parent_extend (scope : Scope) (slots : List Slot) :
    (scope.extend slots).parent = scope.parent := by
  induction slots generalizing scope with
  | nil => rfl
  | cons slot rest ih => exact ih (scope.insert slot)

theorem extend_append (scope : Scope) (first second : List Slot) :
    scope.extend (first ++ second) = (scope.extend first).extend second := List.foldl_append

theorem mem_order_insert : name ∈ (scope.insert slot).order ↔ name = slot.name ∨ name ∈ scope.order := by
  rw [listed, listed, insert, Std.TreeMap.mem_insert, Std.compare_eq_iff_eq, eq_comm]

theorem mem_order_extend :
    name ∈ (scope.extend slots).order ↔ name ∈ scope.order ∨ name ∈ slots.map Slot.name := by
  induction slots generalizing scope with
  | nil => simp [extend]
  | cons slot rest ih =>
    have step : name ∈ ((scope.insert slot).extend rest).order ↔ _ := ih
    rw [mem_order_insert, or_comm (a := name = slot.name), or_assoc] at step
    exact step.trans (by rw [List.map_cons, List.mem_cons])

/-- Slots with new names go behind the others. -/
theorem slots_extend (distinct : (scope.order ++ slots.map Slot.name).Nodup) :
    (scope.extend slots).slots = scope.slots ++ slots := by
  induction slots generalizing scope with
  | nil => exact (List.append_nil _).symm
  | cons slot rest ih =>
    have absent : scope.declares slot.name = false := by
      refine Bool.eq_false_iff.mpr fun declared => ?_
      exact (List.nodup_append.mp distinct).2.2 _ (declares_iff.mp declared) _ (by simp) rfl
    have next : ((scope.insert slot).extend rest).slots = (scope.insert slot).slots ++ rest := by
      refine ih ?_
      rw [order_insert absent]
      simpa using distinct
    rw [List.append_cons, ← slots_insert absent]
    exact next

/-! ### A new value -/

@[simp] theorem parent_put (scope : Scope) (name : String) (value : Value) :
    (scope.put name value).parent = scope.parent := rfl

theorem slot?_put (scope : Scope) (name other : String) (value : Value) :
    (scope.put name value).slot? other =
      if name = other then (scope.slot? other).map ({ · with value }) else scope.slot? other := by
  rw [put, slot?, Std.TreeMap.getElem?_modify]
  simp only [Std.compare_eq_iff_eq]
  split
  case isTrue same =>
    subst same
    rw [Option.map_map, slot?, Option.map_map]
    rfl
  case isFalse => rfl

theorem slots_put (scope : Scope) (name : String) (value : Value) :
    (scope.put name value).slots =
      scope.slots.map fun slot => if slot.name = name then { slot with value } else slot := by
  rw [slots, slots, List.map_filterMap]
  refine List.filterMap_congr fun other _ => ?_
  rw [slot?_put]
  cases found : scope.slot? other with
  | none => simp
  | some slot =>
    simp only [Option.map_some, name_of_slot? found, eq_comm]
    split <;> rfl

theorem forall_values_put {P : Value → Prop} (all : ∀ slot ∈ scope.slots, P slot.value) (new : P value) :
    ∀ slot ∈ (scope.put name value).slots, P slot.value := by
  intro slot inside
  rw [slots_put] at inside
  obtain ⟨before, there, rfl⟩ := List.mem_map.mp inside
  split
  · exact new
  · exact all before there

end Scope

namespace Store

variable {s : Store} {h : Handle} {name : String}

theorem owner?_of_declares (declared : s.declares h name = true) : s.owner? h name = some h := by
  rw [owner?, if_pos declared]

theorem owner?_of_not_declares (absent : s.declares h name = false) :
    s.owner? h name = s.ownerAbove? h name := by
  rw [owner?, if_neg (Bool.eq_false_iff.mp absent), ownerAbove?]

/-- The nearest scope that has a name has a slot for it. -/
theorem exists_slot_of_owner? {owner : Handle} (found : s.owner? h name = some owner) :
    ∃ slot, (s.scope owner).slot? name = some slot := by
  fun_induction s.owner? h name with
  | case1 h declared =>
    cases found
    exact Option.isSome_iff_exists.mp (Scope.isSome_slot?.trans declared)
  | case2 => cases found
  | case3 h absent parent above older ih => exact ih found
  | case4 => cases found

/-- The slot that a name means is the one in the nearest scope that has the name. -/
theorem slot?_eq (s : Store) (h : Handle) (name : String) :
    s.slot? h name = (s.owner? h name).bind fun owner => (s.scope owner).slot? name := by
  rw [slot?]
  cases declared : s.declares h name with
  | true =>
    obtain ⟨slot, found⟩ := Option.isSome_iff_exists.mp (Scope.isSome_slot?.trans declared)
    rw [owner?_of_declares declared, Option.bind_some, found]
  | false =>
    rw [owner?_of_not_declares declared, Scope.slot?_eq_none_iff.mpr declared]
    rfl

/-- Assigning acts on the nearest scope that has the name. -/
theorem assign_eq (h : Handle) (name : String) (value : Value) (s : Store) :
    assign h name value s =
      match s.owner? h name with
      | none => .error (.undefinedVariable name) s
      | some owner => assignIn owner name value s := by
  rw [assign]
  cases declared : s.declares h name with
  | true =>
    rw [owner?_of_declares declared]
    rfl
  | false =>
    rw [owner?_of_not_declares declared]
    rfl

end Store

end BasicScript
