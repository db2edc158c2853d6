import BasicScript.Proofs.Store.Native

/-! The region of a store that has been made since a given moment. Code that runs there holds
nothing from before that moment: scopes of the region lie below scopes of the region, and what is in
its slots, containers, functions, methods and modules is in the region, too. So whatever was there
before stays as it was. -/

set_option autoImplicit false

namespace BasicScript

/-- A table that has grown: the old rows are as they were, and the rows made since are `good`. -/
structure Rows {α : Type} (good : α → Prop) (old new : Array α) : Prop where
  kept {i : Nat} {a : α} : old[i]? = some a → new[i]? = some a
  made {i : Nat} {a : α} : old.size ≤ i → new[i]? = some a → good a

namespace Rows

variable {α : Type} {good better : α → Prop} {old new : Array α}

theorem refl (table : Array α) : Rows good table table where
  kept found := found
  made beyond found := by
    rw [Array.getElem?_eq_none beyond] at found
    cases found

theorem mono (rows : Rows good old new) (weaker : ∀ a, good a → better a) :
    Rows better old new where
  kept := rows.kept
  made beyond found := weaker _ (rows.made beyond found)

theorem size_le (rows : Rows good old new) : old.size ≤ new.size := by
  cases last : old.size with
  | zero => exact Nat.zero_le _
  | succ n =>
    obtain ⟨a, found⟩ : ∃ a, old[n]? = some a := ⟨_, Array.getElem?_eq_getElem (by omega)⟩
    exact (Array.getElem?_eq_some_iff.mp (rows.kept found)).1

theorem append {more : Array α} (rows : Rows good old new) (fits : ∀ a ∈ more, good a) :
    Rows good old (new ++ more) where
  kept found := by
    have found := rows.kept found
    rw [Array.getElem?_append_left (Array.getElem?_eq_some_iff.mp found).1, found]
  made {i a} beyond found := by
    rw [Array.getElem?_append] at found
    split at found
    · exact rows.made beyond found
    · exact fits a (Array.mem_of_getElem? found)

theorem push {row : α} (rows : Rows good old new) (fits : good row) :
    Rows good old (new.push row) := by
  rw [Array.push_eq_append]
  exact rows.append fun a inside => by
    rw [Array.mem_singleton.mp inside]
    exact fits

theorem modify {i : Nat} {f : α → α} (rows : Rows good old new) (beyond : old.size ≤ i)
    (fits : ∀ a, new[i]? = some a → good (f a)) : Rows good old (new.modify i f) where
  kept {j a} found := by
    have before : j < old.size := (Array.getElem?_eq_some_iff.mp found).1
    rw [Array.getElem?_modify, if_neg (by omega)]
    exact rows.kept found
  made {j a} beyond found := by
    rw [Array.getElem?_modify] at found
    split at found
    case isTrue here =>
      obtain ⟨row, there, rfl⟩ := Option.map_eq_some_iff.mp found
      exact fits row (by rw [here, there])
    case isFalse => exact rows.made beyond found

end Rows

/-- The value has been made since the store was `began`: it is not one of its handles. A function
has to be there, since one that is not would run in the first scope. -/
def Value.Since (began now : Store) : Value → Prop
  | .list h => began.lists.size ≤ h
  | .dictionary h => began.dictionaries.size ≤ h
  | .function h => began.functions.size ≤ h ∧ h < now.functions.size
  | .builtIn h => began.builtIns.size ≤ h
  | .module h => began.modules.size ≤ h
  | .number _ | .string _ | .boolean _ | .null => True

namespace Value.Since

variable {began now later : Store}

theorem of_plain {v : Value} (plain : v.isPlain = true) : v.Since began now := by
  cases v with
  | number _ | string _ | boolean _ | null => trivial
  | list _ | dictionary _ | function _ | builtIn _ | module _ => cases plain

theorem mono {v : Value} (since : v.Since began now)
    (grows : now.functions.size ≤ later.functions.size) : v.Since began later := by
  cases v with
  | function h => exact ⟨since.1, Nat.lt_of_lt_of_le since.2 grows⟩
  | number _ | string _ | boolean _ | null | list _ | dictionary _ | builtIn _ | module _ =>
    exact since

end Value.Since

abbrev Action.Since (began now : Store) (action : Action) : Prop :=
  action.Within (·.Since began now) (fun _ => False) True

theorem Action.Within.mono {owns owns' : Value → Prop} {trusts : HostFunction → Prop}
    {mutates : Prop} {action : Action} (within : action.Within owns trusts mutates)
    (weaker : ∀ v, owns v → owns' v) : action.Within owns' trusts mutates := by
  cases action <;>
    first | exact weaker _ within | exact within | exact ⟨weaker _ within.1, within.2⟩

theorem Action.Within.both {owns owns' both : Value → Prop} {trusts : HostFunction → Prop}
    {mutates mutates' : Prop} {action : Action} (first : action.Within owns trusts mutates)
    (second : action.Within owns' trusts mutates') (join : ∀ v, owns v → owns' v → both v) :
    action.Within both trusts mutates' := by
  cases action <;>
    first | exact join _ first second | exact first | exact ⟨join _ first.1 second.1, second.2⟩

theorem Action.Within.allow {owns : Value → Prop} {trusts : HostFunction → Prop} {mutates : Prop}
    {action : Action} (within : action.Within owns trusts False) :
    action.Within owns trusts mutates := by
  cases action <;> first | exact within | exact within.2.elim

def Scope.Since (began now : Store) (scope : Scope) : Prop :=
  (∀ parent, scope.parent = some parent → began.scopes.size ≤ parent) ∧
    ∀ slot ∈ scope.slots, slot.value.Since began now

/-- The tables of `s` are those of `began` and a region of their own, with functions up to `now`. -/
structure Store.Apart (began now s : Store) : Prop where
  scopes : Rows (·.Since began now) began.scopes s.scopes
  lists : Rows (fun items => ∀ v ∈ items, v.Since began now) began.lists s.lists
  dictionaries : Rows (fun (entries : Entries) => ∀ entry ∈ entries,
    entry.1.Since began now ∧ entry.2.Since began now) began.dictionaries s.dictionaries
  functions : Rows (fun f => began.scopes.size ≤ f.closure) began.functions s.functions
  builtIns : Rows (fun b => b.action.Since began now) began.builtIns s.builtIns
  modules : Rows (fun m => ∀ entry ∈ m.entries, entry.2.Since began now) began.modules s.modules

namespace Store

variable {began now s : Store} {h : Handle}

theorem Apart.refl (s : Store) : s.Apart s s :=
  ⟨.refl _, .refl _, .refl _, .refl _, .refl _, .refl _⟩

theorem Apart.later {u : Store} (apart : began.Apart now s)
    (grows : now.functions.size ≤ u.functions.size) : began.Apart u s where
  scopes := apart.scopes.mono fun _ since =>
    ⟨since.1, fun slot inside => (since.2 slot inside).mono grows⟩
  lists := apart.lists.mono fun _ since v inside => Value.Since.mono (since v inside) grows
  dictionaries := apart.dictionaries.mono fun _ since entry inside =>
    ⟨(since entry inside).1.mono grows, (since entry inside).2.mono grows⟩
  functions := apart.functions
  builtIns := apart.builtIns.mono fun _ since =>
    Action.Within.mono since fun _ since => Value.Since.mono since grows
  modules := apart.modules.mono fun _ since entry inside =>
    Value.Since.mono (since entry inside) grows

theorem Apart.setScope {update : Scope → Scope} (apart : began.Apart s s)
    (beyond : began.scopes.size ≤ h)
    (fits : ∀ scope, scope.Since began s → (update scope).Since began s) :
    began.Apart (s.setScope h update) (s.setScope h update) := by
  have scopes : Rows (·.Since began s) began.scopes (s.scopes.modify h update) :=
    apart.scopes.modify beyond fun scope found => fits scope (apart.scopes.made beyond found)
  have changed : began.Apart s (s.setScope h update) := { apart with scopes }
  exact changed.later (Nat.le_refl _)

namespace Apart

variable (apart : began.Apart now s) (beyond : began.scopes.size ≤ h)

include apart beyond

theorem scope : (s.scope h).Since began now := by
  unfold Store.scope
  cases found : s.scopes[h]? with
  | none => exact ⟨fun _ => (nomatch ·), fun _ => (nomatch ·)⟩
  | some scope => exact apart.scopes.made beyond found

/-- Walking up from a scope of the region does not leave it. -/
theorem owner {name : String} {owner : Handle} (found : s.owner? h name = some owner) :
    began.scopes.size ≤ owner := by
  fun_induction s.owner? h name with
  | case1 h declared => exact Option.some.inj found ▸ beyond
  | case2 => cases found
  | case3 h declared parent above below ih =>
    -- the parent of a scope of the region is in the region, too
    exact ih ((apart.scope beyond).1 parent above) found
  | case4 => cases found

end Apart

/-- What a name means is what stands in the slot that it leads to. -/
theorem exists_slot_of_lookup {name : String} {v : Value}
    (found : s.lookup h name = .ok v) :
    ∃ owner slot, s.owner? h name = some owner ∧ slot ∈ (s.scope owner).slots ∧ slot.value = v := by
  rw [Store.lookup, Store.slot?_eq] at found
  cases above : s.owner? h name with
  | none => simp [above] at found
  | some owner =>
    cases there : (s.scope owner).slot? name with
    | none => simp [above, there] at found
    | some slot =>
      have same : slot.value = v := by simpa [above, there] using found
      exact ⟨owner, slot, rfl, Scope.mem_slots.mpr (Scope.name_of_slot? there ▸ there), same⟩

end Store

/-- The slots of a new root scope hold functions made with it. -/
theorem BuiltIn.rootSlots_since {began now : Store} {first : Handle}
    (beyond : began.builtIns.size ≤ first) :
    ∀ slot ∈ ((Scope.empty none).extend (rootSlots first)).slots, slot.value.Since began now := by
  rw [slots_root]
  intro slot inside
  rcases List.mem_append.mp inside with inside | inside
  · obtain ⟨⟨name, value⟩, known, rfl⟩ := List.mem_map.mp inside
    have plain : ∀ entry ∈ constants, entry.2.isPlain = true := by decide
    exact .of_plain (plain _ known)
  · obtain ⟨i, _, rfl⟩ := List.mem_mapIdx.mp inside
    exact Nat.le_trans beyond (Nat.le_add_right first i)

theorem BuiltIn.globals_within (owns : Value → Prop) (trusts : HostFunction → Prop)
    (mutates : Prop) : ∀ b ∈ globals, b.action.Within owns trusts mutates := by
  simp [globals, Action.Within]

/-- Code that runs in the region of what has been made since the store was as it `began`. -/
def Discipline.region (began : Store) : Discipline where
  holds s := began.Apart s s
  owns s v := v.Since began s
  sees _ h := began.scopes.size ≤ h
  runs _ h := began.scopes.size ≤ h
  trusts _ := False
  raises _ := True
  bodies _ := True
  mutates := True
  allows _ := True
  owns_mono grows since := since.mono grows.functions_size
  runs_mono _ := id
  sees_of_runs := id
  owns_plain := .of_plain
  owns_variable {s h name v} apart beyond found := by
    obtain ⟨owner, slot, above, inside, rfl⟩ := Store.exists_slot_of_lookup found
    exact (apart.scope (apart.owner beyond above)).2 slot inside
  owns_export apart beyond inside := (apart.scope beyond).2 _ (List.mem_filter.mp inside).1
  owns_item {s h v} apart beyond inside := by
    unfold Store.items at inside
    cases found : s.lists[h]? with
    | none => simp [found] at inside
    | some items => exact apart.lists.made beyond found v (by simpa [found] using inside)
  owns_entry {s h entry} apart beyond inside := by
    unfold Store.entries at inside
    cases found : s.dictionaries[h]? with
    | none => simp [found] at inside
    | some entries =>
      exact apart.dictionaries.made beyond found entry (by simpa [found] using inside)
  owns_member {s h name v} apart beyond found := by
    cases there : s.modules[h]? with
    | none =>
      rw [there] at found
      cases found
    | some m =>
      simp only [there, Option.getD_some, Exports.get?, Option.map_eq_some_iff] at found
      obtain ⟨entry, found, rfl⟩ := found
      exact apart.modules.made beyond there entry (List.mem_of_find?_eq_some found)
  sees_closure {s h} apart since := by
    obtain ⟨f, there⟩ : ∃ f, s.functions[h]? = some f := ⟨_, Array.getElem?_eq_getElem since.2⟩
    rw [there]
    exact apart.functions.made since.1 there
  action_within {s h} apart beyond := by
    cases found : s.builtIns[h]? with
    | none => trivial
    | some b => exact apart.builtIns.made beyond found
  owns_answer trusted := trusted.elim
  raises_runtime _ := trivial
  raises_refusal _ _ := trivial
  root_added {s} apart := by
    -- the slots of the root scope hold the functions that are made with it
    have now := apart.later (u := s.addRoot.2) (Nat.le_refl _)
    refine ⟨{ now with scopes := now.scopes.push ⟨fun _ => (nomatch ·), ?_⟩
                       builtIns := now.builtIns.append ?_ }, apart.scopes.size_le⟩
    · exact BuiltIn.rootSlots_since apart.builtIns.size_le
    · exact fun b inside => BuiltIn.globals_within _ _ _ b (List.mem_toArray.mp inside)
  scope_added {s h} apart beyond := by
    have fits : Scope.Since began s (.empty (some h)) :=
      ⟨fun parent same => Option.some.inj same ▸ beyond, fun _ => (nomatch ·)⟩
    exact ⟨{ apart with scopes := apart.scopes.push fits }, apart.scopes.size_le⟩
  list_added apart owned :=
    ⟨{ apart with lists := apart.lists.push owned }, apart.lists.size_le⟩
  dictionary_added apart owned _ :=
    ⟨{ apart with dictionaries := apart.dictionaries.push owned }, apart.dictionaries.size_le⟩
  function_added {s f} apart beyond _ := by
    -- with the function there, more handles of functions are in the region
    have now := apart.later (u := (s.addFunction f).2) (by simp [Store.addFunction])
    refine ⟨{ now with functions := now.functions.push beyond }, apart.functions.size_le, ?_⟩
    simp [Store.addFunction]
  builtIn_added apart within :=
    ⟨{ apart with builtIns := apart.builtIns.push within }, apart.builtIns.size_le⟩
  module_added apart owned :=
    ⟨{ apart with modules := apart.modules.push owned }, apart.modules.size_le⟩
  items_changed {s h update} apart beyond owned _ _ := by
    refine { apart with lists := apart.lists.modify beyond fun items found => ?_ }
    simpa [Store.items, found] using owned
  entries_changed {s h update} apart beyond owned _ _ := by
    refine { apart with dictionaries := apart.dictionaries.modify beyond fun entries found => ?_ }
    simpa [Store.entries, found] using owned
  slot_added {s h slot} apart beyond owns _ _ := by
    exact apart.setScope beyond fun scope since => ⟨since.1, Scope.forall_slots_insert since.2 owns⟩
  slot_changed {s h owner name v} apart beyond owns above _ := by
    exact apart.setScope (apart.owner beyond above) fun scope since =>
      ⟨since.1, Scope.forall_values_put since.2 owns⟩

theorem Registry.standard_within (owns : Value → Prop) (trusts : HostFunction → Prop)
    (mutates : Prop) :
    ∀ m ∈ standard, ∀ row ∈ m.rows, ∀ action, row.value = .function action →
      action.Within owns trusts mutates := by
  simp [standard, NativeModule.terminal, NativeModule.math, NativeModule.mathConstants,
    NativeModule.function, NativeModule.constant, Action.Within]

instance (began : Store) : (Discipline.region began).Free := ⟨fun _ => trivial, trivial⟩

instance (began : Store) : (Discipline.region began).Lax := ⟨fun _ => trivial⟩

theorem Discipline.region_admits (began : Store) : (region began).Admits Registry.standard :=
  fun m known row inside action is _ => Registry.standard_within _ _ _ m known row inside action is

/-- Everything in `s` stands in `t` under the same handle, as it was. -/
structure Store.PartOf (s t : Store) : Prop where
  scopes {h : Handle} {x : Scope} : s.scopes[h]? = some x → t.scopes[h]? = some x
  lists {h : Handle} {x : Array Value} : s.lists[h]? = some x → t.lists[h]? = some x
  dictionaries {h : Handle} {x : Entries} :
    s.dictionaries[h]? = some x → t.dictionaries[h]? = some x
  functions {h : Handle} {x : Function} : s.functions[h]? = some x → t.functions[h]? = some x
  builtIns {h : Handle} {x : BuiltIn} : s.builtIns[h]? = some x → t.builtIns[h]? = some x
  modules {h : Handle} {x : Exports} : s.modules[h]? = some x → t.modules[h]? = some x

namespace Store

variable {s t u : Store} {h : Handle}

theorem Apart.partOf {now : Store} (apart : s.Apart now t) : s.PartOf t where
  scopes := apart.scopes.kept
  lists := apart.lists.kept
  dictionaries := apart.dictionaries.kept
  functions := apart.functions.kept
  builtIns := apart.builtIns.kept
  modules := apart.modules.kept

theorem partOf_of_region {began : Store} (holds : (Discipline.region began).holds s) :
    began.PartOf s := Apart.partOf holds

theorem PartOf.refl (s : Store) : s.PartOf s := ⟨id, id, id, id, id, id⟩

theorem PartOf.trans (first : s.PartOf t) (second : t.PartOf u) : s.PartOf u where
  scopes found := second.scopes (first.scopes found)
  lists found := second.lists (first.lists found)
  dictionaries found := second.dictionaries (first.dictionaries found)
  functions found := second.functions (first.functions found)
  builtIns found := second.builtIns (first.builtIns found)
  modules found := second.modules (first.modules found)

theorem partOf_addModule (m : Exports) : s.PartOf (s.addModule m).2 :=
  { PartOf.refl s with
    modules := fun found => getElem?_of_prefix (extends_addModule m).modules found }

def gaining (s : Store) (h : Handle) (slots : List Slot) : Store :=
  s.setScope h (·.extend slots)

theorem gaining_nil : s.gaining h [] = s := by
  have same : s.scopes.modify h (·.extend []) = s.scopes :=
    Array.ext (by simp) fun i _ _ => by simp [Array.getElem_modify, Scope.extend]
  simp only [gaining, setScope, same]

theorem gaining_append (first second : List Slot) :
    (s.gaining h first).gaining h second = s.gaining h (first ++ second) := by
  have same : (s.scopes.modify h (·.extend first)).modify h (·.extend second) =
      s.scopes.modify h (·.extend (first ++ second)) := by
    refine Array.ext (by simp) fun i _ _ => ?_
    simp only [Array.getElem_modify]
    split
    · exact (Scope.extend_append _ first second).symm
    · rfl
  simp only [gaining, setScope, same]

/-- What a scope gains may be added before other tables grow. -/
theorem PartOf.gaining (part : s.PartOf t) (slots : List Slot) :
    (s.gaining h slots).PartOf (t.gaining h slots) where
  scopes {i x} found := by
    simp only [Store.gaining, setScope_scopes, Array.getElem?_modify] at found ⊢
    split at found
    case isTrue here =>
      obtain ⟨y, there, rfl⟩ := Option.map_eq_some_iff.mp found
      rw [if_pos here, part.scopes there, Option.map_some]
    case isFalse elsewhere =>
      rw [if_neg elsewhere, part.scopes found]
  lists := part.lists
  dictionaries := part.dictionaries
  functions := part.functions
  builtIns := part.builtIns
  modules := part.modules

end Store

end BasicScript
