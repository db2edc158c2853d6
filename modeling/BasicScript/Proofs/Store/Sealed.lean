import BasicScript.Proofs.Store.Every

/-! The discipline of all programs: they hold no loose handles, as long as the functions of the host
answer with nothing but what they have been given. It can be narrowed down to stores in which
something holds that depends on containers alone. -/

set_option autoImplicit false

namespace BasicScript

/-- The host function answers with a plain value or with one that it has been given or looked up. -/
def HostFunction.Honest (f : HostFunction) : Prop :=
  ∀ call v, f call = .ok v →
    v.isPlain = true ∨ v ∈ call.args ∨ ∃ name, call.lookup name = .ok v

namespace Store

abbrev Sealed (s : Store) : Prop :=
  ({} : Store).Every HostFunction.Honest True (·.Made s) s

variable {s t : Store} {h : Handle}

/-- A change that takes no container away. -/
theorem Sealed.grown (every : ({} : Store).Every HostFunction.Honest True (·.Made s) t)
    (grows : s.Extends t) : t.Sealed :=
  every.mono fun _ => Value.Made.mono grows.lists grows.dictionaries

end Store

namespace Discipline

open Store

def sealed : Discipline where
  holds := Store.Sealed
  owns s v := v.Made s
  sees _ _ := True
  runs _ _ := True
  trusts := HostFunction.Honest
  raises _ := True
  bodies _ := True
  mutates := True
  allows _ := True
  owns_mono grows made := made.mono grows.lists grows.dictionaries
  runs_mono _ _ := trivial
  sees_of_runs _ := trivial
  owns_plain := .of_plain
  owns_variable every _ found := by
    obtain ⟨owner, slot, _, inside, rfl⟩ := exists_slot_of_lookup found
    exact every.slot (Nat.zero_le _) inside
  owns_export every _ inside := every.slot (Nat.zero_le _) (List.mem_filter.mp inside).1
  owns_item every _ inside := every.item (Nat.zero_le _) inside
  owns_entry every _ inside := every.entry (Nat.zero_le _) inside
  owns_member every _ found := every.member (Nat.zero_le _) found
  sees_closure _ _ := trivial
  action_within {s h} every _ := by
    cases found : s.builtIns[h]? with
    | none => trivial
    | some b => exact every.actions.made (Nat.zero_le _) found
  owns_answer honest given looked answer := by
    rcases honest _ _ answer with plain | inside | ⟨name, found⟩
    · exact .of_plain plain
    · exact given _ inside
    · exact looked name _ found
  raises_runtime _ := trivial
  raises_refusal _ _ := trivial
  root_added {s} every := by
    refine ⟨Sealed.grown (s := s) { every with slots := ?_, actions := ?_ } extends_withRoot, trivial⟩
    · exact every.slots.push BuiltIn.rootSlots_made
    · exact every.actions.append fun b inside =>
        BuiltIn.globals_within _ _ _ b (List.mem_toArray.mp inside)
  scope_added every _ :=
    ⟨Sealed.grown { every with slots := every.slots.push fun _ => (nomatch ·) } (extends_addScope _),
      trivial⟩
  list_added every made :=
    ⟨Sealed.grown { every with items := every.items.push made } (extends_addList _),
      by simp [Value.Made, Store.addList]⟩
  dictionary_added every made _ :=
    ⟨Sealed.grown { every with entries := every.entries.push made } (extends_addDictionary _),
      by simp [Value.Made, Store.addDictionary]⟩
  function_added every _ _ := ⟨Sealed.grown { every with } (extends_addFunction _), trivial⟩
  builtIn_added every within :=
    ⟨Sealed.grown { every with actions := every.actions.push within } (extends_addBuiltIn _), trivial⟩
  module_added every made :=
    ⟨Sealed.grown { every with modules := every.modules.push made } (extends_addModule _), trivial⟩
  items_changed {s h update} every _ made _ _ := by
    refine Sealed.grown { every with items := ?_ } (extends_setItems (s := s) _)
    refine every.items.modify (Nat.zero_le _) fun items found => ?_
    simpa [Store.items, found] using made
  entries_changed {s h update} every _ made _ _ := by
    refine Sealed.grown { every with entries := ?_ } (extends_setEntries (s := s) _)
    refine every.entries.modify (Nat.zero_le _) fun entries found => ?_
    simpa [Store.entries, found] using made
  slot_added {s h slot} every _ made _ _ := by
    refine Sealed.grown { every with slots := ?_ } (extends_setScope (s := s) _)
    rw [setScope_scopes]
    exact every.slots.modify (Nat.zero_le _) fun scope found =>
      Scope.forall_slots_insert (every.slots.made (Nat.zero_le _) found) made
  slot_changed {s h owner name v} every _ made _ _ := by
    refine Sealed.grown { every with slots := ?_ } (extends_setScope (s := s) _)
    rw [setScope_scopes]
    exact every.slots.modify (Nat.zero_le _) fun scope found =>
      Scope.forall_values_put (every.slots.made (Nat.zero_le _) found) made

instance : sealed.Free := ⟨fun _ => trivial, trivial⟩

instance : sealed.Lax := ⟨fun _ => trivial⟩

/-- The discipline with what else holds of the stores of a run, if containers alone decide on it and
it stays when there are more lists. -/
def narrow (D : Discipline) (P : Store → Prop)
    (stays : ∀ {s t : Store}, D.holds s → P s → s.lists.toList <+: t.lists.toList →
      t.dictionaries = s.dictionaries → P t) : Discipline :=
  { D with
    holds := fun s => D.holds s ∧ P s
    allows := fun s => D.allows s ∧ P s
    owns_variable := fun ⟨holds, _⟩ => D.owns_variable holds
    owns_export := fun ⟨holds, _⟩ => D.owns_export holds
    owns_item := fun ⟨holds, _⟩ => D.owns_item holds
    owns_entry := fun ⟨holds, _⟩ => D.owns_entry holds
    owns_member := fun ⟨holds, _⟩ => D.owns_member holds
    sees_closure := fun ⟨holds, _⟩ => D.sees_closure holds
    action_within := fun ⟨holds, _⟩ => D.action_within holds
    root_added := fun ⟨holds, also⟩ =>
      (D.root_added holds).imp_left fun there => ⟨there, stays holds also List.prefix_rfl rfl⟩
    scope_added := fun ⟨holds, also⟩ sees =>
      (D.scope_added holds sees).imp_left fun there => ⟨there, stays holds also List.prefix_rfl rfl⟩
    list_added := fun ⟨holds, also⟩ owned => (D.list_added holds owned).imp_left fun there =>
      ⟨there, stays holds also (by simp [addList]) rfl⟩
    dictionary_added := fun ⟨holds, _⟩ owned ⟨allows, also⟩ =>
      (D.dictionary_added holds owned allows).imp_left fun there => ⟨there, also⟩
    function_added := fun ⟨holds, also⟩ sees body =>
      (D.function_added holds sees body).imp_left fun there => ⟨there, stays holds also List.prefix_rfl rfl⟩
    builtIn_added := fun ⟨holds, also⟩ within =>
      (D.builtIn_added holds within).imp_left fun there => ⟨there, stays holds also List.prefix_rfl rfl⟩
    module_added := fun ⟨holds, also⟩ owned =>
      (D.module_added holds owned).imp_left fun there => ⟨there, stays holds also List.prefix_rfl rfl⟩
    items_changed := fun ⟨holds, _⟩ owned all fits ⟨allows, also⟩ =>
      ⟨D.items_changed holds owned all fits allows, also⟩
    entries_changed := fun ⟨holds, _⟩ owned all mutates ⟨allows, also⟩ =>
      ⟨D.entries_changed holds owned all mutates allows, also⟩
    slot_added := fun ⟨holds, also⟩ runs owned declared absent =>
      ⟨D.slot_added holds runs owned declared absent, stays holds also List.prefix_rfl rfl⟩
    slot_changed := fun ⟨holds, also⟩ sees owned above free =>
      ⟨D.slot_changed holds sees owned above free, stays holds also List.prefix_rfl rfl⟩ }

end Discipline

end BasicScript
