import BasicScript.Proofs.Store.Region

/-! Stores without loose handles. Every value that is stored somewhere is a plain one, or a handle
of something that has been made, so what is made anew stands nowhere yet. -/

set_option autoImplicit false

namespace BasicScript

/-- The value is no handle of a container that is yet to be made. -/
def Value.Made (s : Store) : Value → Prop
  | .list h => h < s.lists.size
  | .dictionary h => h < s.dictionaries.size
  | .number _ | .string _ | .boolean _ | .null | .function _ | .builtIn _ | .module _ => True

namespace Value.Made

variable {s t : Store} {v : Value}

theorem of_plain (plain : v.isPlain = true) : v.Made s := by
  cases v with
  | number _ | string _ | boolean _ | null => trivial
  | list _ | dictionary _ | function _ | builtIn _ | module _ => cases plain

theorem mono (lists : s.lists.size ≤ t.lists.size)
    (dictionaries : s.dictionaries.size ≤ t.dictionaries.size) (made : v.Made s) : v.Made t := by
  cases v with
  | list h => exact Nat.lt_of_lt_of_le made lists
  | dictionary h => exact Nat.lt_of_lt_of_le made dictionaries
  | number _ | string _ | boolean _ | null | function _ | builtIn _ | module _ => trivial

end Value.Made

theorem BuiltIn.rootSlots_made {s : Store} {first : Handle} :
    ∀ slot ∈ ((Scope.empty none).extend (rootSlots first)).slots, slot.value.Made s := by
  rw [slots_root]
  intro slot inside
  rcases List.mem_append.mp inside with inside | inside
  · obtain ⟨⟨name, value⟩, known, rfl⟩ := List.mem_map.mp inside
    have plain : ∀ entry ∈ constants, entry.2.isPlain = true := by decide
    exact .of_plain (plain _ known)
  · obtain ⟨i, _, rfl⟩ := List.mem_mapIdx.mp inside
    trivial

namespace Store

/-- Whatever has been put into the store since it was `origin` is good. A function made since
holds what is good, and one of the host is trusted; none puts a value into a list, unless that
`mutates`. -/
structure Every (trusts : HostFunction → Prop) (mutates : Prop) (origin : Store) (good : Value → Prop)
    (s : Store) : Prop where
  slots : Rows (fun scope => ∀ slot ∈ scope.slots, good slot.value) origin.scopes s.scopes
  items : Rows (fun items => ∀ v ∈ items, good v) origin.lists s.lists
  entries : Rows (fun (entries : Entries) => ∀ entry ∈ entries, good entry.1 ∧ good entry.2)
    origin.dictionaries s.dictionaries
  actions : Rows (fun b => b.action.Within good trusts mutates) origin.builtIns s.builtIns
  modules : Rows (fun m => ∀ entry ∈ m.entries, good entry.2) origin.modules s.modules

variable {trusts : HostFunction → Prop} {mutates : Prop} {good better : Value → Prop}
  {origin s t : Store} {h : Handle} {v w : Value}

theorem Every.mono (every : origin.Every trusts mutates good s) (weaker : ∀ v, good v → better v) :
    origin.Every trusts mutates better s where
  slots := every.slots.mono fun _ all slot inside => weaker _ (all slot inside)
  items := every.items.mono fun _ all v inside => weaker _ (all v inside)
  entries := every.entries.mono fun _ all entry inside =>
    ⟨weaker _ (all entry inside).1, weaker _ (all entry inside).2⟩
  actions := every.actions.mono fun _ within => within.mono weaker
  modules := every.modules.mono fun _ all entry inside => weaker _ (all entry inside)

theorem Every.item (every : origin.Every trusts mutates good s) (beyond : origin.lists.size ≤ h)
    (inside : v ∈ s.items h) : good v := by
  unfold Store.items at inside
  cases found : s.lists[h]? with
  | none => simp [found] at inside
  | some items => exact every.items.made beyond found v (by simpa [found] using inside)

theorem Every.entry {entry : Value × Value} (every : origin.Every trusts mutates good s)
    (beyond : origin.dictionaries.size ≤ h) (inside : entry ∈ s.entries h) :
    good entry.1 ∧ good entry.2 := by
  unfold Store.entries at inside
  cases found : s.dictionaries[h]? with
  | none => simp [found] at inside
  | some entries => exact every.entries.made beyond found entry (by simpa [found] using inside)

theorem Every.member {name : String} (every : origin.Every trusts mutates good s)
    (beyond : origin.modules.size ≤ h) (found : (s.modules[h]?.getD default).get? name = some v) :
    good v := by
  cases known : s.modules[h]? with
  | none =>
    rw [known] at found
    cases found
  | some m =>
    simp only [known, Option.getD_some, Exports.get?, Option.map_eq_some_iff] at found
    obtain ⟨entry, found, rfl⟩ := found
    exact every.modules.made beyond known entry (List.mem_of_find?_eq_some found)

theorem Every.slot {slot : Slot} (every : origin.Every trusts mutates good s) (beyond : origin.scopes.size ≤ h)
    (inside : slot ∈ (s.scope h).slots) : good slot.value := by
  unfold Store.scope at inside
  cases found : s.scopes[h]? with
  | none => simp [found] at inside
  | some scope => exact every.slots.made beyond found slot (by simpa [found] using inside)

end Store

end BasicScript
