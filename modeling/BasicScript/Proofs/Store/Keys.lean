import BasicScript.Proofs.Store.Equality
import BasicScript.Proofs.Store.Sealed

/-! Keys of dictionaries. They are told apart when they are stored. From then on they stay apart for
as long as nothing inside of them changes, since nothing else decides how they compare. -/

set_option autoImplicit false

namespace BasicScript

def Value.isNaN : Value → Bool
  | .number n => !n.equal n
  | _ => false

namespace Store

open Relation

variable {s t : Store} {h : Handle} {v w : Value} {table : Entries}

/-! ### What is made anew -/

/-- Containers have been made, and none has been changed. -/
structure Grown (s t : Store) : Prop where
  lists : s.lists.toList <+: t.lists.toList
  dictionaries : s.dictionaries.toList <+: t.dictionaries.toList

theorem Grown.refl (s : Store) : s.Grown s := ⟨List.prefix_rfl, List.prefix_rfl⟩

theorem Grown.trans {u : Store} (first : s.Grown t) (second : t.Grown u) : s.Grown u :=
  ⟨first.lists.trans second.lists, first.dictionaries.trans second.dictionaries⟩

theorem grown_addList (items : Array Value) : s.Grown (s.addList items).2 :=
  ⟨by simp [addList], List.prefix_rfl⟩

theorem grown_addDictionary (table : Entries) : s.Grown (s.addDictionary table).2 :=
  ⟨List.prefix_rfl, by simp [addDictionary]⟩

theorem Grown.made (grown : s.Grown t) (made : v.Made s) : v.Made t :=
  made.mono grown.lists.length_le grown.dictionaries.length_le

theorem Sealed.reaches (sealed : s.Sealed) (made : v.Made s)
    (reaches : ReflTransGen s.Contains v w) : w.Made s := by
  induction reaches with
  | refl => exact made
  | @tail u w _ inside _ =>
    cases u with
    | list h => exact sealed.item (Nat.zero_le h) inside
    | dictionary h =>
      obtain ⟨entry, here, rfl | rfl⟩ := inside
      · exact (sealed.entry (Nat.zero_le h) here).1
      · exact (sealed.entry (Nat.zero_le h) here).2
    | number _ | string _ | boolean _ | null | function _ | builtIn _ | module _ => exact inside.elim

/-- Making containers changes nothing inside of what has been made before. -/
theorem Sealed.kept (sealed : s.Sealed) (made : v.Made s) (grown : s.Grown t) : s.Kept t v := by
  intro w reaches
  have made := sealed.reaches made reaches
  cases w with
  | list h =>
    have found : s.lists[h]? = some s.lists[h] := Array.getElem?_eq_getElem made
    simp only [SameAt, items, found, getElem?_of_prefix grown.lists found]
  | dictionary h =>
    have found : s.dictionaries[h]? = some s.dictionaries[h] := Array.getElem?_eq_getElem made
    simp only [SameAt, Store.entries, found, getElem?_of_prefix grown.dictionaries found]
  | number _ | string _ | boolean _ | null | function _ | builtIn _ | module _ => trivial

/-! ### Distinct keys -/

theorem equal_self (real : v.isNaN = false) : s.equal v v = true := by
  refine equal_of_equalWithin? (n := 0) ?_
  cases v with
  | number n => exact congrArg some (by simpa [Value.isNaN] using real)
  | list _ | dictionary _ => exact if_pos rfl
  | null => rfl
  | string _ | boolean _ | function _ | builtIn _ | module _ => exact congrArg some (beq_self_eq_true _)

theorem DistinctKeys.kept (distinct : s.DistinctKeys table)
    (kept : ∀ entry ∈ table, s.Kept t entry.1) : t.DistinctKeys table := by
  refine List.Pairwise.imp_of_mem (fun {first second} here there apart => ?_) distinct
  rw [← (kept first (Array.mem_toList_iff.mp here)).equal (kept second (Array.mem_toList_iff.mp there))]
  exact apart

theorem distinctKeys_empty : s.DistinctKeys #[] := .nil

theorem put_of_lt {i : Nat} {key value : Value} (inside : i < table.size) :
    table.put (some i) key value = table.modify i fun entry => (entry.1, value) := by
  have there : (some i).filter (fun j => decide (j < table.size)) = some i :=
    Option.filter_some_pos (decide_eq_true inside)
  rw [Entries.put, there]

/-- The entry that is written to keeps its key. -/
theorem keys_put_of_lt {i : Nat} {key value : Value} (inside : i < table.size) :
    (table.put (some i) key value).toList.map Prod.fst = table.toList.map Prod.fst := by
  refine List.ext_getElem? fun j => ?_
  simp only [put_of_lt inside, List.getElem?_map, Array.getElem?_toList, Array.getElem?_modify]
  split
  · rw [Option.map_map]
    rfl
  · rfl

theorem lt_of_position? {key : Value} {i : Nat} (position : s.position? table key = some i) :
    i < table.size := (Array.findIdx?_eq_some_iff_getElem.mp position).1

/-- A key that is equal to one of the keys is not stored, and any other goes behind them all. -/
theorem DistinctKeys.insert {key value : Value} (distinct : s.DistinctKeys table) :
    s.DistinctKeys (s.insert table key value) := by
  unfold Store.insert
  cases position : s.position? table key with
  | none =>
    have missed : ∀ entry ∈ table, s.equal entry.1 key = false :=
      Array.findIdx?_eq_none_iff.mp position
    show List.Pairwise _ (table.push (key, value)).toList
    rw [Array.toList_push, List.pairwise_append]
    refine ⟨distinct, List.pairwise_singleton _ _, fun entry inside other there => ?_⟩
    rw [List.mem_singleton.mp there]
    exact missed entry (Array.mem_toList_iff.mp inside)
  | some i =>
    have apart : (table.toList.map Prod.fst).Pairwise fun first second => s.equal first second = false :=
      List.pairwise_map.mpr distinct
    exact List.pairwise_map.mp (keys_put_of_lt (lt_of_position? position) ▸ apart)

def keys (s : Store) : List Value :=
  s.dictionaries.toList.flatMap fun table => table.toList.map Prod.fst

theorem mem_keys {entry : Value × Value} (there : table ∈ s.dictionaries) (inside : entry ∈ table) :
    entry.1 ∈ s.keys :=
  List.mem_flatMap.mpr ⟨table, Array.mem_toList_iff.mpr there,
    List.mem_map_of_mem (Array.mem_toList_iff.mpr inside)⟩

def KeysApart (s : Store) : Prop := ∀ table ∈ s.dictionaries, s.DistinctKeys table

/-- What is inside of all keys of `t` is as it was in `s`. -/
abbrev KeysKept (s t : Store) : Prop := ∀ key ∈ t.keys, s.Kept t key

/-- As long as nothing inside of keys changes, it is enough that they have been apart when they were
stored. -/
theorem KeysKept.apart (kept : s.KeysKept t) (apart : ∀ table ∈ t.dictionaries, s.DistinctKeys table) :
    t.KeysApart :=
  fun table there => (apart table there).kept fun _ inside => kept _ (mem_keys there inside)

theorem Sealed.made_of_key {entry : Value × Value} (sealed : s.Sealed) (there : table ∈ s.dictionaries)
    (inside : entry ∈ table) : entry.1.Made s ∧ entry.2.Made s := by
  obtain ⟨h, bound, rfl⟩ := Array.mem_iff_getElem.mp there
  exact sealed.entries.made (Nat.zero_le _) (Array.getElem?_eq_getElem bound) entry inside

theorem KeysApart.grown (apart : s.KeysApart) (sealed : s.Sealed) (grown : s.Grown t)
    (same : t.dictionaries = s.dictionaries) : t.KeysApart := by
  intro table there
  rw [same] at there
  exact (apart table there).kept fun entry inside =>
    sealed.kept (sealed.made_of_key there inside).1 grown

/-- Writing under a key leaves all dictionaries with keys that have been distinct before. -/
theorem KeysApart.setEntries {key value : Value} (apart : s.KeysApart) :
    ∀ table ∈ (s.setEntries h fun entries =>
      Entries.put entries (s.position? (s.entries h) key) key value).dictionaries,
        s.DistinctKeys table := by
  intro table there
  obtain ⟨i, found⟩ := Array.mem_iff_getElem?.mp there
  rw [setEntries_dictionaries, Array.getElem?_modify] at found
  split at found
  case isTrue here =>
    subst here
    obtain ⟨before, known, rfl⟩ := Option.map_eq_some_iff.mp found
    have same : s.entries h = before := by simp [Store.entries, known]
    rw [same]
    exact (apart before (Array.mem_of_getElem? known)).insert
  case isFalse => exact apart table (Array.mem_of_getElem? found)

theorem KeysApart.addDictionary (apart : s.KeysApart) (sealed : s.Sealed)
    (made : ∀ entry ∈ table, entry.1.Made s) (distinct : s.DistinctKeys table) :
    (s.addDictionary table).2.KeysApart := by
  have grown := grown_addDictionary (s := s) table
  intro other there
  rcases Array.mem_push.mp there with there | rfl
  · exact (apart other there).kept fun entry inside =>
      sealed.kept (sealed.made_of_key there inside).1 grown
  · exact distinct.kept fun entry inside => sealed.kept (made entry inside) grown

theorem KeysApart.later {i j : Nat} {first second : Value × Value} (apart : s.KeysApart)
    (there : table ∈ s.dictionaries) (one : table[i]? = some first) (other : table[j]? = some second)
    (before : i < j) : s.equal first.1 second.1 = false := by
  obtain ⟨bound, rfl⟩ := Array.getElem?_eq_some_iff.mp one
  obtain ⟨bound', rfl⟩ := Array.getElem?_eq_some_iff.mp other
  have distinct := List.pairwise_iff_getElem.mp (apart table there) i j bound bound' before
  rwa [Array.getElem_toList, Array.getElem_toList] at distinct

theorem KeysApart.reads {entry : Value × Value} (apart : s.KeysApart) (inside : entry ∈ s.entries h)
    (real : entry.1.isNaN = false) : s.getItem (.dictionary h) entry.1 = .ok entry.2 := by
  cases known : s.dictionaries[h]? with
  | none => simp [Store.entries, known] at inside
  | some table =>
    have same : s.entries h = table := by simp [Store.entries, known]
    rw [same] at inside
    obtain ⟨i, bound, rfl⟩ := Array.mem_iff_getElem.mp inside
    have found : Array.find? (fun other => s.equal other.1 table[i].1) table = some table[i] := by
      rw [Array.find?_eq_some_iff_getElem]
      refine ⟨equal_self real, i, bound, rfl, fun j before => ?_⟩
      rw [apart.later (Array.mem_of_getElem? known) (Array.getElem?_eq_getElem _)
        (Array.getElem?_eq_getElem bound) before]
      rfl
    simp only [getItem, valueAt?, Entries.find?, same, found, Option.map_some]

end Store

namespace Discipline

open Store

def keyed : Discipline :=
  sealed.narrow KeysApart fun sealed apart lists same =>
    apart.grown sealed ⟨lists, by rw [same]⟩ same

def keyedSince (began : Store) : Discipline :=
  sealed.narrow (fun t => ∀ table ∈ t.dictionaries, began.DistinctKeys table) fun _ apart _ same =>
    same ▸ apart

instance : keyed.Free := ⟨fun _ => trivial, trivial⟩

instance (began : Store) : (keyedSince began).LaxLists := ⟨fun holds => ⟨trivial, holds.2⟩⟩

/-! ### Native tables -/

variable {s : Store} {row : String}

mutual

/-- The conversion of data changes no container that is there, so the keys that it has stored stay
apart while it goes on. -/
theorem keyed_data : ∀ {s : Store} (v : NativeValue), keyed.holds s →
    keyed.SoundAct s (fun t v => v.Made t ∧ s.Grown t) (v.data row s)
  | s, .number _, holds | s, .text _, holds | s, .boolean _, holds | s, .null, holds => by
    rw [NativeValue.data]
    exact .value holds (.refl _) ⟨.of_plain rfl, .refl s⟩
  | s, .list items, holds => by
    rw [NativeValue.data]
    apply Sound.bind (keyed_items items holds ownsAll_empty)
    intro values t holds _ ⟨made, grown⟩
    have ⟨holds', made'⟩ := keyed.list_added holds made
    exact .value holds' (extends_addList values) ⟨made', grown.trans (grown_addList values)⟩
  | s, .map entries, holds => by
    rw [NativeValue.data]
    apply Sound.bind (keyed_entries entries holds ownsEntries_empty distinctKeys_empty)
    intro table t holds _ ⟨made, distinct, grown⟩
    have apart := holds.2.addDictionary holds.1 (fun entry inside => (made entry inside).1) distinct
    have ⟨holds', made'⟩ := keyed.dictionary_added holds made ⟨trivial, apart⟩
    exact .value holds' (extends_addDictionary table)
      ⟨made', grown.trans (grown_addDictionary table)⟩
  | s, .function _, holds => by
    rw [NativeValue.data]
    exact .fault holds (.refl _) trivial

theorem keyed_items : ∀ {s : Store} (items : List NativeValue) {found : Array Value},
    keyed.holds s → keyed.ownsAll s found → keyed.SoundAct s
      (fun t values => keyed.ownsAll t values ∧ s.Grown t) (NativeValue.dataItems row items found s)
  | s, [], _, holds, made => by
    rw [NativeValue.dataItems]
    exact .value holds (.refl _) ⟨made, .refl s⟩
  | s, item :: rest, found, holds, made => by
    rw [NativeValue.dataItems]
    apply Sound.bind (keyed_data item holds)
    intro value t holds _ ⟨madeValue, grown⟩
    refine (keyed_items rest holds fun v inside => ?_).mono fun u values fits =>
      ⟨fits.1, grown.trans fits.2⟩
    rcases Array.mem_push.mp inside with inside | rfl
    · exact grown.made (made v inside)
    · exact madeValue

theorem keyed_entries : ∀ {s : Store} (entries : List (NativeValue × NativeValue)) {found : Entries},
    keyed.holds s → keyed.ownsEntries s found → s.DistinctKeys found → keyed.SoundAct s
      (fun t table => keyed.ownsEntries t table ∧ t.DistinctKeys table ∧ s.Grown t)
      (NativeValue.dataEntries row entries found s)
  | s, [], _, holds, made, distinct => by
    rw [NativeValue.dataEntries]
    exact .value holds (.refl _) ⟨made, distinct, .refl s⟩
  | s, (key, value) :: rest, found, holds, made, distinct => by
    rw [NativeValue.dataEntries]
    apply Sound.bind (keyed_data key holds)
    intro k t holdsKey _ ⟨madeKey, grownKey⟩
    apply Sound.bind (keyed_data value holdsKey)
    intro v u holds' _ ⟨madeValue, grownValue⟩
    apply Sound.bind (P := fun u' table => u' = u ∧ table = u.insert found k v)
      (read holds' ⟨rfl, rfl⟩)
    intro table u' holds' _ same
    obtain ⟨rfl, rfl⟩ := same
    have grown := grownKey.trans grownValue
    have distinct : u'.DistinctKeys found :=
      distinct.kept fun entry inside => holds.1.kept (made entry inside).1 grown
    have made : keyed.ownsEntries u' found := fun entry inside =>
      ⟨grown.made (made entry inside).1, grown.made (made entry inside).2⟩
    exact (keyed_entries rest holds' (owns_of_insert made (grownValue.made madeKey) madeValue)
      distinct.insert).mono fun w table fits => ⟨fits.1, fits.2.1, grown.trans fits.2.2⟩

end

instance : keyed.Converts := ⟨fun v holds => (keyed_data v holds).mono fun _ _ => And.left⟩

end Discipline

end BasicScript
