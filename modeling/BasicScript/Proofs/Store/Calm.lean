import BasicScript.Proofs.Node.Tame
import BasicScript.Proofs.Store.Every

/-! Calm regions of a store. As long as only tame code has run in the region, each of its containers
holds what was there before it, so no value contains itself; no list gets longer; and all functions
have tame bodies. -/

set_option autoImplicit false

namespace BasicScript

namespace Store

def Inside (origin s : Store) (v : Value) : Value → Prop
  | .list h => origin.lists.size ≤ h ∧ v ∈ s.items h
  | .dictionary h => origin.dictionaries.size ≤ h ∧ ∃ entry ∈ s.entries h, v = entry.1 ∨ v = entry.2
  | _ => False

variable {trusts : HostFunction → Prop} {mutates : Prop} {good : Value → Prop} {origin s t : Store}
  {h : Handle} {v w : Value}

theorem Every.inside (every : origin.Every trusts mutates good s) (inside : origin.Inside s v w) : good v := by
  cases w with
  | list h => exact every.item inside.1 inside.2
  | dictionary h =>
    obtain ⟨beyond, entry, here, rfl | rfl⟩ := inside
    · exact (every.entry beyond here).1
    · exact (every.entry beyond here).2
  | number _ | string _ | boolean _ | null | function _ | builtIn _ | module _ => exact inside.elim

theorem nests_with (nests : WellFounded (origin.Inside s)) (every : origin.Every (fun _ => False) False (·.Made s) t)
    (new : Value) (fresh : ¬new.Made s)
    (kept : ∀ v w, w ≠ new → origin.Inside t v w → origin.Inside s v w) :
    WellFounded (origin.Inside t) := by
  -- the new container stands in none, so the others are as accessible as they were without it
  have other {v w : Value} (inside : origin.Inside t v w) : v ≠ new :=
    fun same => fresh (same ▸ every.inside inside)
  have old (w : Value) : w ≠ new → Acc (origin.Inside t) w := by
    induction w using nests.induction with
    | _ w ih => exact fun apart => ⟨w, fun v inside => ih v (kept v w apart inside) (other inside)⟩
  refine ⟨fun w => ?_⟩
  by_cases same : w = new
  · exact ⟨w, fun v inside => old v (other inside)⟩
  · exact old w same

theorem sublist_setItems {update : Array Value → Array Value}
    (fewer : (update (s.items h)).toList.Sublist (s.items h).toList) (i : Handle) :
    ((s.setItems h update).items i).toList.Sublist (s.items i).toList := by
  simp only [items, setItems_lists, Array.getElem?_modify] at fewer ⊢
  split
  case isTrue same =>
    subst same
    cases found : s.lists[h]? with
    | none => exact List.Sublist.refl _
    | some items => simpa [found] using fewer
  case isFalse => exact List.Sublist.refl _

/-- No value made since the store was `origin` contains itself, and all code made since is tame. -/
structure Calm (origin s : Store) : Prop where
  made : origin.Every (fun _ => False) False (·.Made s) s
  nests : WellFounded (origin.Inside s)
  bodies : Rows (fun f => Node.allTame f.body = true) origin.functions s.functions

namespace Calm

theorem refl (origin : Store) : origin.Calm origin where
  made := ⟨.refl _, .refl _, .refl _, .refl _, .refl _⟩
  nests := by
    have none (h : Handle) (beyond : origin.lists.size ≤ h) : origin.items h = #[] := by
      rw [Store.items, Array.getElem?_eq_none beyond, Option.getD_none]
    have none' (h : Handle) (beyond : origin.dictionaries.size ≤ h) : origin.entries h = #[] := by
      rw [Store.entries, Array.getElem?_eq_none beyond, Option.getD_none]
    refine ⟨fun w => ⟨w, fun v inside => ?_⟩⟩
    cases w with
    | list h =>
      have inside : v ∈ (#[] : Array Value) := none h inside.1 ▸ inside.2
      exact absurd inside (Array.not_mem_empty _)
    | dictionary h =>
      obtain ⟨beyond, entry, inside, _⟩ := inside
      have inside : entry ∈ (#[] : Entries) := none' h beyond ▸ inside
      exact absurd inside (Array.not_mem_empty _)
    | number _ | string _ | boolean _ | null | function _ | builtIn _ | module _ => exact inside.elim
  bodies := .refl _

theorem outside (calm : origin.Calm s) (lists : t.lists = s.lists)
    (dictionaries : t.dictionaries = s.dictionaries) (made : origin.Every (fun _ => False) False (·.Made s) t)
    (bodies : Rows (fun f => Node.allTame f.body = true) origin.functions t.functions) :
    origin.Calm t where
  made := made.mono fun v =>
    Value.Made.mono (Nat.le_of_eq (by rw [lists])) (Nat.le_of_eq (by rw [dictionaries]))
  nests := by
    have same : origin.Inside t = origin.Inside s := by
      funext v w
      cases w <;> simp only [Inside, Store.items, Store.entries, lists, dictionaries]
    rw [same]
    exact calm.nests
  bodies := bodies

theorem addList {items : Array Value} (calm : origin.Calm s) (made : ∀ v ∈ items, v.Made s) :
    origin.Calm (s.addList items).2 := by
  have every : origin.Every (fun _ => False) False (·.Made s) (s.addList items).2 :=
    { calm.made with items := calm.made.items.push made }
  refine ⟨every.mono fun v => Value.Made.mono (by simp [Store.addList]) (Nat.le_refl _),
    nests_with calm.nests every (.list s.lists.size) (Nat.lt_irrefl _) fun v w other inside => ?_,
    calm.bodies⟩
  cases w with
  | list h =>
    have other : h ≠ s.lists.size := fun same => other (congrArg Value.list same)
    simpa [Inside, Store.items, Store.addList, Array.getElem?_push, other] using inside
  | number _ | string _ | boolean _ | null | dictionary _ | function _ | builtIn _ | module _ =>
    exact inside

theorem addDictionary {entries : Entries} (calm : origin.Calm s)
    (made : ∀ entry ∈ entries, entry.1.Made s ∧ entry.2.Made s) :
    origin.Calm (s.addDictionary entries).2 := by
  have every : origin.Every (fun _ => False) False (·.Made s) (s.addDictionary entries).2 :=
    { calm.made with entries := calm.made.entries.push made }
  refine ⟨every.mono fun v => Value.Made.mono (Nat.le_refl _) (by simp [Store.addDictionary]),
    nests_with calm.nests every (.dictionary s.dictionaries.size) (Nat.lt_irrefl _)
      fun v w other inside => ?_,
    calm.bodies⟩
  cases w with
  | dictionary h =>
    have other : h ≠ s.dictionaries.size := fun same => other (congrArg Value.dictionary same)
    simpa [Inside, Store.entries, Store.addDictionary, Array.getElem?_push, other] using inside
  | number _ | string _ | boolean _ | null | list _ | function _ | builtIn _ | module _ =>
    exact inside

theorem setItems {update : Array Value → Array Value} (calm : origin.Calm s)
    (beyond : origin.lists.size ≤ h)
    (fewer : (update (s.items h)).toList.Sublist (s.items h).toList) :
    origin.Calm (s.setItems h update) := by
  have kept {i : Handle} {v : Value} (inside : v ∈ (s.setItems h update).items i) :
      v ∈ s.items i := by
    rw [Array.mem_def] at inside ⊢
    exact (sublist_setItems fewer i).subset inside
  have items : Rows (fun items => ∀ v ∈ items, v.Made s) origin.lists (s.lists.modify h update) := by
    refine calm.made.items.modify beyond fun items found v inside => ?_
    refine calm.made.items.made beyond found v (Array.mem_def.mpr ?_)
    have fewer : (update items).toList.Sublist items.toList := by simpa [Store.items, found] using fewer
    exact fewer.subset (Array.mem_def.mp inside)
  have every : origin.Every (fun _ => False) False (·.Made s) (s.setItems h update) := { calm.made with items }
  refine ⟨every.mono fun v => Value.Made.mono (by simp) (Nat.le_refl _), ?_, calm.bodies⟩
  have within : Subrelation (origin.Inside (s.setItems h update)) (origin.Inside s) := by
    intro v w inside
    cases w with
    | list i => exact ⟨inside.1, kept inside.2⟩
    | number _ | string _ | boolean _ | null | dictionary _ | function _ | builtIn _ | module _ =>
      exact inside
  exact within.wf calm.nests

theorem setScope {update : Scope → Scope} (calm : origin.Calm s) (beyond : origin.scopes.size ≤ h)
    (made : ∀ scope, (∀ slot ∈ scope.slots, slot.value.Made s) →
      ∀ slot ∈ (update scope).slots, slot.value.Made s) :
    origin.Calm (s.setScope h update) := by
  have slots : Rows (fun scope => ∀ slot ∈ scope.slots, slot.value.Made s) origin.scopes
      (s.scopes.modify h update) :=
    calm.made.slots.modify beyond fun scope found => made scope (calm.made.slots.made beyond found)
  exact calm.outside rfl rfl { calm.made with slots } calm.bodies

end Calm

structure NoLonger (s t : Store) : Prop where
  lists : s.lists.size ≤ t.lists.size
  items {h : Handle} : h < s.lists.size → (t.items h).size ≤ (s.items h).size

namespace NoLonger

variable {u : Store}

theorem refl (s : Store) : s.NoLonger s := ⟨Nat.le_refl _, fun _ => Nat.le_refl _⟩

theorem trans (first : s.NoLonger t) (second : t.NoLonger u) : s.NoLonger u where
  lists := Nat.le_trans first.lists second.lists
  items inside :=
    Nat.le_trans (second.items (Nat.lt_of_lt_of_le inside first.lists)) (first.items inside)

theorem outside (kept : s.NoLonger t) (lists : u.lists = t.lists) : s.NoLonger u where
  lists := lists ▸ kept.lists
  items inside := by
    rw [Store.items, lists]
    exact kept.items inside

theorem addList (kept : s.NoLonger t) (items : Array Value) : s.NoLonger (t.addList items).2 where
  lists := Nat.le_trans kept.lists (by simp [Store.addList])
  items {h} inside := by
    have old : h ≠ t.lists.size := Nat.ne_of_lt (Nat.lt_of_lt_of_le inside kept.lists)
    have same : (t.addList items).2.items h = t.items h := by
      simp [Store.items, Store.addList, Array.getElem?_push, old]
    rw [same]
    exact kept.items inside

theorem setItems {update : Array Value → Array Value} (kept : s.NoLonger t)
    (fewer : (update (t.items h)).toList.Sublist (t.items h).toList) :
    s.NoLonger (t.setItems h update) where
  lists := Nat.le_trans kept.lists (by simp)
  items {i} inside := Nat.le_trans (sublist_setItems fewer i).length_le (kept.items inside)

end NoLonger

end Store

structure Value.There (origin s : Store) (v : Value) : Prop where
  since : v.Since origin s
  made : v.Made s

theorem Value.There.of_plain {origin s : Store} {v : Value} (plain : v.isPlain = true) :
    v.There origin s := ⟨.of_plain plain, .of_plain plain⟩

/-- Tame code that runs in the region of what has been made since the store was `origin`. The lists
that were there when it `began` do not get longer. -/
def Discipline.calm (origin began : Store) : Discipline where
  holds s := origin.Apart s s ∧ origin.Calm s ∧ began.NoLonger s
  owns s v := v.There origin s
  sees := (region origin).sees
  runs := (region origin).runs
  trusts _ := False
  raises _ := True
  bodies body := Node.allTame body = true
  mutates := False
  allows _ := True
  owns_mono grows there :=
    ⟨(region origin).owns_mono grows there.since, there.made.mono grows.lists grows.dictionaries⟩
  runs_mono := (region origin).runs_mono
  sees_of_runs := (region origin).sees_of_runs
  owns_plain := .of_plain
  owns_variable {s h name v} holds beyond found := by
    refine ⟨(region origin).owns_variable holds.1 beyond found, ?_⟩
    obtain ⟨owner, slot, above, inside, rfl⟩ := Store.exists_slot_of_lookup found
    exact holds.2.1.made.slot (holds.1.owner beyond above) inside
  owns_export holds beyond inside := ⟨(region origin).owns_export holds.1 beyond inside,
    holds.2.1.made.slot beyond (List.mem_filter.mp inside).1⟩
  owns_item holds there inside := ⟨(region origin).owns_item holds.1 there.since inside,
    holds.2.1.made.item there.since inside⟩
  owns_entry holds there inside :=
    have since := (region origin).owns_entry holds.1 there.since inside
    have made := holds.2.1.made.entry there.since inside
    ⟨⟨since.1, made.1⟩, ⟨since.2, made.2⟩⟩
  owns_member holds there found := ⟨(region origin).owns_member holds.1 there.since found,
    holds.2.1.made.member there.since found⟩
  sees_closure holds there := (region origin).sees_closure holds.1 there.since
  action_within {s h} holds there := by
    cases found : s.builtIns[h]? with
    | none => trivial
    | some b =>
      exact (holds.1.builtIns.made there.since found).both
        (holds.2.1.made.actions.made there.since found) fun _ => .mk
  owns_answer trusted := trusted.elim
  raises_runtime _ := trivial
  raises_refusal _ _ := trivial
  root_added {s} holds := by
    have ⟨apart, runs⟩ := (region origin).root_added holds.1
    have every : origin.Every (fun _ => False) False (·.Made s) s.addRoot.2 :=
      { holds.2.1.made with
        slots := holds.2.1.made.slots.push BuiltIn.rootSlots_made
        actions := holds.2.1.made.actions.append fun b inside =>
          BuiltIn.globals_within _ _ _ b (List.mem_toArray.mp inside) }
    exact ⟨⟨apart, holds.2.1.outside rfl rfl every holds.2.1.bodies, holds.2.2.outside rfl⟩, runs⟩
  scope_added {s h} holds beyond := by
    have ⟨apart, runs⟩ := (region origin).scope_added holds.1 beyond
    have every : origin.Every (fun _ => False) False (·.Made s) (s.addScope (some h)).2 :=
      { holds.2.1.made with slots := holds.2.1.made.slots.push fun _ => (nomatch ·) }
    exact ⟨⟨apart, holds.2.1.outside rfl rfl every holds.2.1.bodies, holds.2.2.outside rfl⟩, runs⟩
  list_added holds there := by
    have ⟨apart, since⟩ := (region origin).list_added holds.1 fun v inside => (there v inside).since
    exact ⟨⟨apart, holds.2.1.addList fun v inside => (there v inside).made, holds.2.2.addList _⟩,
      since, by simp [Value.Made, Store.addList]⟩
  dictionary_added holds there _ := by
    have ⟨apart, since⟩ := (region origin).dictionary_added holds.1 (fun entry inside =>
      ⟨(there entry inside).1.since, (there entry inside).2.since⟩) trivial
    refine ⟨⟨apart, holds.2.1.addDictionary fun entry inside => ?_, holds.2.2.outside rfl⟩, since,
      by simp [Value.Made, Store.addDictionary]⟩
    exact ⟨(there entry inside).1.made, (there entry inside).2.made⟩
  function_added holds beyond tame := by
    have ⟨apart, since⟩ := (region origin).function_added holds.1 beyond trivial
    exact ⟨⟨apart, holds.2.1.outside rfl rfl { holds.2.1.made with } (holds.2.1.bodies.push tame),
      holds.2.2.outside rfl⟩, since, trivial⟩
  builtIn_added {s b} holds within := by
    have ⟨apart, since⟩ := (region origin).builtIn_added holds.1 (b := b)
      ((within.mono fun _ => Value.There.since).allow)
    have every : origin.Every (fun _ => False) False (·.Made s) (s.addBuiltIn b).2 :=
      { holds.2.1.made with
        actions := holds.2.1.made.actions.push (within.mono fun _ => Value.There.made) }
    exact ⟨⟨apart, holds.2.1.outside rfl rfl every holds.2.1.bodies, holds.2.2.outside rfl⟩, since,
      trivial⟩
  module_added {s m} holds there := by
    have ⟨apart, since⟩ := (region origin).module_added holds.1 fun entry inside =>
      (there entry inside).since
    have every : origin.Every (fun _ => False) False (·.Made s) (s.addModule m).2 :=
      { holds.2.1.made with
        modules := holds.2.1.made.modules.push fun entry inside => (there entry inside).made }
    exact ⟨⟨apart, holds.2.1.outside rfl rfl every holds.2.1.bodies, holds.2.2.outside rfl⟩, since,
      trivial⟩
  items_changed holds there owned fewer _ := by
    -- tame code cannot set an item or append one, only take items away
    have fewer := fewer.resolve_left id
    exact ⟨(region origin).items_changed holds.1 there.since (fun v inside => (owned v inside).since)
      (.inl trivial) trivial, holds.2.1.setItems there.since fewer, holds.2.2.setItems fewer⟩
  entries_changed _ _ _ mutates _ := mutates.elim
  slot_added holds beyond there isScript new := by
    exact ⟨(region origin).slot_added holds.1 beyond there.since isScript new,
      holds.2.1.setScope beyond fun scope made => Scope.forall_slots_insert made there.made,
      holds.2.2.outside rfl⟩
  slot_changed holds beyond there above free := by
    exact ⟨(region origin).slot_changed holds.1 beyond there.since above free,
      holds.2.1.setScope (holds.1.owner beyond above) fun scope made =>
        Scope.forall_values_put made there.made,
      holds.2.2.outside rfl⟩

instance (origin began : Store) : (Discipline.calm origin began).Lax := ⟨fun _ => trivial⟩

theorem Discipline.calm_admits (origin began : Store) : (calm origin began).Admits Registry.standard :=
  fun m known row inside action is _ => Registry.standard_within _ _ _ m known row inside action is

end BasicScript
