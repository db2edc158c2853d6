import BasicScript.Proofs.Store.Keys
import Mathlib.Data.List.Find

/-! Dictionaries as what has been written to them. Equal keys form a class. A dictionary has an
entry for each class of keys, in the order in which the classes were first written to, with the
first key and the last value of the class. It does not matter which way it was written to, as long
as no key changes. -/

set_option autoImplicit false

namespace BasicScript.Store

open Relation

variable {s t u : Store} {h : Handle} {a b v w key value : Value} {keys : List Value}
  {writes : List (Value × Value)} {table : Entries}

/-! ### Classes of keys -/

def firstKeys (s : Store) : List Value → List Value
  | [] => []
  | key :: rest => key :: (s.firstKeys rest).filter fun other => !s.equal key other

def lastValue? (s : Store) (writes : List (Value × Value)) (key : Value) : Option Value :=
  (writes.reverse.find? fun write => s.equal write.1 key).map Prod.snd

theorem firstKeys_sublist (keys : List Value) : (s.firstKeys keys).Sublist keys := by
  induction keys with
  | nil => exact .slnil
  | cons key rest ih => exact (List.filter_sublist.trans ih).cons_cons key

/-- No class has two of the first keys. -/
theorem firstKeys_pairwise (keys : List Value) :
    (s.firstKeys keys).Pairwise fun first second => s.equal first second = false := by
  induction keys with
  | nil => exact .nil
  | cons key rest ih =>
    refine .cons (fun other inside => ?_) (ih.sublist List.filter_sublist)
    simpa using (List.mem_filter.mp inside).2

theorem exists_firstKey (regular : ∀ key ∈ keys, s.Regular key) (inside : key ∈ keys) :
    ∃ first ∈ s.firstKeys keys, s.equal first key = true := by
  induction keys with
  | nil => cases inside
  | cons head rest ih =>
    obtain ⟨head_regular, regular⟩ := List.forall_mem_cons.mp regular
    by_cases same : s.equal head key = true
    · exact ⟨head, List.mem_cons_self, same⟩
    obtain rfl | inside := List.mem_cons.mp inside
    · exact absurd (equivalence_regular.refl head_regular) same
    obtain ⟨first, there, equal⟩ := ih regular inside
    have first_regular := regular first ((firstKeys_sublist rest).subset there)
    refine ⟨first, List.mem_cons_of_mem _ (List.mem_filter.mpr ⟨there, ?_⟩), equal⟩
    -- the head would else be equal to the key, as it is equal to `first`
    rw [Bool.not_eq_true', Bool.eq_false_iff]
    exact fun also => same
      (equivalence_regular.trans head_regular first_regular (regular key inside) also equal)

/-- A key of a new class goes behind the first keys, and any other changes nothing. -/
theorem firstKeys_concat (regular : ∀ other ∈ keys, s.Regular other) (key_regular : s.Regular key) :
    s.firstKeys (keys ++ [key]) = if (s.firstKeys keys).any (s.equal · key) then s.firstKeys keys
      else s.firstKeys keys ++ [key] := by
  induction keys with
  | nil => rfl
  | cons head rest ih =>
    obtain ⟨head_regular, regular⟩ := List.forall_mem_cons.mp regular
    rw [List.cons_append, firstKeys, ih regular, firstKeys, List.any_cons]
    by_cases known : (s.firstKeys rest).any (s.equal · key) = true
    · rw [if_pos known, if_pos]
      rw [Bool.or_eq_true, or_iff_not_imp_left]
      intro apart
      obtain ⟨first, there, equal⟩ := List.any_eq_true.mp known
      have first_regular := regular first ((firstKeys_sublist rest).subset there)
      refine List.any_eq_true.mpr ⟨first, List.mem_filter.mpr ⟨there, ?_⟩, equal⟩
      rw [Bool.not_eq_true', Bool.eq_false_iff]
      exact fun also => apart
        (equivalence_regular.trans head_regular first_regular key_regular also equal)
    · have unknown : ((s.firstKeys rest).filter fun other => !s.equal head other).any
          (s.equal · key) = false := by
        refine List.any_eq_false.mpr fun first there => ?_
        exact List.any_eq_false.mp (Bool.eq_false_iff.mpr known) first (List.mem_filter.mp there).1
      rw [if_neg known, unknown, Bool.or_false, List.filter_append]
      by_cases same : s.equal head key = true
      · simp [same]
      · simp [same]

theorem lastValue?_concat (writes : List (Value × Value)) (key value other : Value) :
    s.lastValue? (writes ++ [(key, value)]) other =
      if s.equal key other then some value else s.lastValue? writes other := by
  rw [lastValue?, List.reverse_append, List.reverse_singleton, List.singleton_append, List.find?_cons]
  cases s.equal key other <;> rfl

theorem lastValue?_congr (regular : ∀ write ∈ writes, s.Regular write.1) (left : s.Regular a)
    (right : s.Regular b) (same : s.equal a b = true) :
    s.lastValue? writes a = s.lastValue? writes b := by
  have agree : ∀ write ∈ writes.reverse, s.equal write.1 a = s.equal write.1 b := by
    intro write inside
    have written := regular write (List.mem_reverse.mp inside)
    refine Bool.eq_iff_iff.mpr ⟨fun equal => ?_, fun equal => ?_⟩
    · exact equivalence_regular.trans written left right equal same
    · exact equivalence_regular.trans written right left equal
        (equivalence_regular.symm left right same)
  rw [lastValue?, lastValue?, List.find?_congr agree]

/-! ### Entries -/

/-- The entries of a dictionary are what has been written to it: one for each class of keys, with
the first key of the class and the value that was written to the class last. -/
structure Upserts (s : Store) (writes : List (Value × Value)) (table : Entries) : Prop where
  keys : table.toList.map Prod.fst = s.firstKeys (writes.map Prod.fst)
  values : ∀ entry ∈ table, s.lastValue? writes entry.1 = some entry.2

namespace Upserts

theorem empty (s : Store) : s.Upserts [] #[] := ⟨rfl, fun _ => (absurd · (Array.not_mem_empty _))⟩

variable (upserts : s.Upserts writes table)

include upserts

theorem size : table.size = (s.firstKeys (writes.map Prod.fst)).length := by
  rw [← upserts.keys, List.length_map, Array.length_toList]

theorem distinct : s.DistinctKeys table := by
  have apart := s.firstKeys_pairwise (writes.map Prod.fst)
  rw [← upserts.keys] at apart
  exact List.pairwise_map.mp apart

theorem written {entry : Value × Value} (inside : entry ∈ table) : entry.1 ∈ writes.map Prod.fst := by
  refine (s.firstKeys_sublist _).subset ?_
  rw [← upserts.keys]
  exact List.mem_map_of_mem (Array.mem_toList_iff.mpr inside)

theorem position?_eq (key : Value) :
    s.position? table key = (s.firstKeys (writes.map Prod.fst)).findIdx? (s.equal · key) := by
  obtain ⟨entries⟩ := table
  rw [← upserts.keys, List.findIdx?_map, Store.position?, List.findIdx?_toArray]
  rfl

/-- A lookup finds what was written last to the first class that it meets. -/
theorem valueAt?_eq_bind (key : Value) :
    s.valueAt? table key =
      ((s.firstKeys (writes.map Prod.fst)).find? (s.equal · key)).bind (s.lastValue? writes) := by
  rw [← upserts.keys, List.find?_map, Store.valueAt?, Entries.find?, ← Array.find?_toList]
  cases found : table.toList.find? fun entry => s.equal entry.1 key with
  | none => simp [found]
  | some entry =>
    have inside := Array.mem_toList_iff.mp (List.mem_of_find?_eq_some found)
    simp [found, upserts.values entry inside]

variable (regular : ∀ write ∈ writes, s.Regular write.1)

include regular

theorem regular_of_mem {entry : Value × Value} (inside : entry ∈ table) : s.Regular entry.1 := by
  obtain ⟨write, there, same⟩ := List.mem_map.mp (upserts.written inside)
  exact same ▸ regular write there

/-- A lookup finds what was written last under an equal key, and nothing if nothing was. -/
theorem valueAt?_eq (key_regular : s.Regular key) : s.valueAt? table key = s.lastValue? writes key := by
  rw [Store.valueAt?, Entries.find?]
  cases found : Array.find? (fun entry => s.equal entry.1 key) table with
  | some entry =>
    have inside := Array.mem_of_find?_eq_some found
    have same : s.equal entry.1 key = true := (Array.find?_some found :)
    rw [Option.map_some, ← upserts.values entry inside]
    exact lastValue?_congr regular (upserts.regular_of_mem regular inside) key_regular same
  | none =>
    have missed : (writes.reverse.find? fun write => s.equal write.1 key) = none := by
      refine List.find?_eq_none.mpr fun write inside same => ?_
      have inside := List.mem_reverse.mp inside
      have all : ∀ key ∈ writes.map Prod.fst, s.Regular key := List.forall_mem_map.mpr regular
      obtain ⟨first, there, equal⟩ := exists_firstKey all (List.mem_map_of_mem inside)
      have first_regular := all first ((firstKeys_sublist _).subset there)
      rw [← upserts.keys] at there
      obtain ⟨entry, here, rfl⟩ := List.mem_map.mp there
      refine Array.find?_eq_none.mp found entry (Array.mem_toList_iff.mp here) ?_
      exact equivalence_regular.trans first_regular (regular write inside) key_regular equal same
    rw [lastValue?, missed, Option.map_none]

theorem insert (key_regular : s.Regular key) (value : Value) :
    s.Upserts (writes ++ [(key, value)]) (s.insert table key value) := by
  have known : (s.firstKeys (writes.map Prod.fst)).any (s.equal · key) =
      (s.position? table key).isSome := by
    rw [upserts.position?_eq, List.findIdx?_isSome]
  have classes := firstKeys_concat (List.forall_mem_map.mpr regular) key_regular
  rw [known] at classes
  have symm {entry : Value × Value} (inside : entry ∈ table) :
      s.equal key entry.1 = s.equal entry.1 key := by
    have entry_regular := upserts.regular_of_mem regular inside
    exact Bool.eq_iff_iff.mpr ⟨equivalence_regular.symm key_regular entry_regular,
      equivalence_regular.symm entry_regular key_regular⟩
  unfold Store.insert
  cases position : s.position? table key with
  | none =>
    have missed : ∀ entry ∈ table, s.equal entry.1 key = false :=
      Array.findIdx?_eq_none_iff.mp position
    refine ⟨?_, fun entry inside => ?_⟩
    · rw [List.map_append, List.map_singleton, classes, position, ← upserts.keys]
      simp [Entries.put]
    · rw [lastValue?_concat]
      rcases Array.mem_push.mp inside with inside | rfl
      · rw [symm inside, missed entry inside]
        exact upserts.values entry inside
      · rw [if_pos (equivalence_regular.refl key_regular)]
  | some i =>
    have bound := lt_of_position? position
    have here : s.equal table[i].1 key = true := (Array.findIdx?_eq_some_iff_getElem.mp position).2.1
    refine ⟨?_, fun entry inside => ?_⟩
    · rw [List.map_append, List.map_singleton, classes, position, keys_put_of_lt bound]
      exact upserts.keys
    · rw [lastValue?_concat]
      rw [put_of_lt bound] at inside
      obtain ⟨j, bound', rfl⟩ := Array.mem_iff_getElem.mp inside
      rw [Array.size_modify] at bound'
      rw [Array.getElem_modify]
      split
      case isTrue same =>
        subst same
        rw [symm (Array.getElem_mem bound), if_pos here]
      case isFalse apart =>
        -- another entry that is equal to the key would be equal to the one that is written to
        have inside : table[j] ∈ table := Array.getElem_mem bound'
        have other : s.equal table[j].1 key = false := by
          refine Bool.eq_false_iff.mpr fun same => apart ?_
          have all : ∀ entry ∈ table, s.Regular entry.1 := fun _ => upserts.regular_of_mem regular
          have equal := equivalence_regular.trans (all _ (Array.getElem_mem bound)) key_regular
            (all _ inside) here ((symm inside).trans same)
          exact congrArg Fin.val (equivalence_regular.place_eq (i := ⟨i, bound⟩) (j := ⟨j, bound'⟩)
            all upserts.distinct equal)
        rw [symm inside, other]
        exact upserts.values _ inside

theorem foldl {pairs : List (Value × Value)} (pairs_regular : ∀ pair ∈ pairs, s.Regular pair.1) :
    s.Upserts (writes ++ pairs)
      (pairs.foldl (fun entries pair => s.insert entries pair.1 pair.2) table) := by
  induction pairs generalizing writes table with
  | nil => exact (List.append_nil writes).symm ▸ upserts
  | cons pair rest ih =>
    obtain ⟨key_regular, rest_regular⟩ := List.forall_mem_cons.mp pairs_regular
    have more := upserts.insert regular key_regular pair.2
    have all : ∀ write ∈ writes ++ [pair], s.Regular write.1 :=
      List.forall_mem_append.mpr ⟨regular, List.forall_mem_singleton.mpr key_regular⟩
    exact List.append_cons writes pair rest ▸ ih more all rest_regular

end Upserts

theorem upserts_collect {pairs : List (Value × Value)} (regular : ∀ pair ∈ pairs, s.Regular pair.1) :
    s.Upserts pairs (s.collect pairs) :=
  (Upserts.empty s).foldl (List.forall_mem_nil _) regular

/-! ### Keys that do not change -/

theorem SameAt.symm (same : s.SameAt t v) : t.SameAt s v := by
  cases v with
  | list _ | dictionary _ => exact Eq.symm same
  | number _ | string _ | boolean _ | null | function _ | builtIn _ | module _ => trivial

theorem SameAt.trans (same : s.SameAt t v) (same' : t.SameAt u v) : s.SameAt u v := by
  cases v with
  | list _ | dictionary _ => exact Eq.trans same same'
  | number _ | string _ | boolean _ | null | function _ | builtIn _ | module _ => trivial

namespace Kept

theorem refl (s : Store) (v : Value) : s.Kept s v := fun w _ => .refl s w

theorem contains (kept : s.Kept t v) (reaches : ReflTransGen s.Contains v w) :
    s.Contains w a ↔ t.Contains w a := (kept w reaches).contains

/-- What is inside of a value that is kept is the same in both stores. -/
theorem reaches_iff (kept : s.Kept t v) :
    ReflTransGen s.Contains v w ↔ ReflTransGen t.Contains v w := by
  constructor
  · intro reaches
    induction reaches with
    | refl => exact .refl
    | tail reaches inside ih => exact ih.tail ((kept.contains reaches).mp inside)
  · intro reaches
    induction reaches with
    | refl => exact .refl
    | tail _ inside ih => exact ih.tail ((kept.contains ih).mpr inside)

theorem symm (kept : s.Kept t v) : t.Kept s v :=
  fun w reaches => (kept w (kept.reaches_iff.mpr reaches)).symm

theorem of_reaches (kept : s.Kept t v) (reaches : ReflTransGen s.Contains v w) : s.Kept t w :=
  fun u further => kept u (reaches.trans further)

theorem regular (kept : s.Kept t v) (regular : s.Regular v) : t.Regular v where
  whole reaches := regular.whole (kept.reaches_iff.mpr reaches)
  acyclic {w} reaches around := by
    have reaches := kept.reaches_iff.mpr reaches
    obtain ⟨u, inside, back⟩ := TransGen.head'_iff.mp around
    have inside := (kept.contains reaches).mpr inside
    have back := ((kept.of_reaches reaches).inner inside).reaches_iff.mpr back
    exact regular.acyclic reaches (TransGen.head'_iff.mpr ⟨u, inside, back⟩)
  distinct {h} reaches := by
    have reaches := kept.reaches_iff.mpr reaches
    have same : s.entries h = t.entries h := kept (.dictionary h) reaches
    have distinct := regular.distinct reaches
    rw [same] at distinct
    refine distinct.kept fun entry inside => (kept.of_reaches reaches).inner ?_
    exact ⟨entry, same ▸ inside, .inl rfl⟩

end Kept

/-- A write to a dictionary keeps each value that the dictionary is not inside of. -/
theorem kept_of_apart (same : ∀ w, w ≠ .dictionary h → s.SameAt t w)
    (apart : ¬ReflTransGen t.Contains v (.dictionary h)) : s.Kept t v :=
  Kept.symm fun w reaches => (same w fun here => apart (here ▸ reaches)).symm

theorem firstKeys_kept (kept : ∀ key ∈ keys, s.Kept t key) : s.firstKeys keys = t.firstKeys keys := by
  induction keys with
  | nil => rfl
  | cons head rest ih =>
    obtain ⟨head_kept, kept⟩ := List.forall_mem_cons.mp kept
    rw [firstKeys, firstKeys, ih kept]
    congr 1
    refine List.filter_congr fun other inside => ?_
    rw [head_kept.equal (kept other ((firstKeys_sublist rest).subset inside))]

theorem lastValue?_kept (kept : ∀ write ∈ writes, s.Kept t write.1) (key_kept : s.Kept t key) :
    s.lastValue? writes key = t.lastValue? writes key := by
  have agree : ∀ write ∈ writes.reverse, s.equal write.1 key = t.equal write.1 key :=
    fun write inside => (kept write (List.mem_reverse.mp inside)).equal key_kept
  rw [lastValue?, lastValue?, List.find?_congr agree]

/-- Entries stay what has been written as long as no key changes. -/
theorem Upserts.kept (upserts : s.Upserts writes table)
    (kept : ∀ write ∈ writes, s.Kept t write.1) : t.Upserts writes table where
  keys := upserts.keys.trans (firstKeys_kept (List.forall_mem_map.mpr kept))
  values entry inside := by
    have key_kept : s.Kept t entry.1 := by
      obtain ⟨write, there, same⟩ := List.mem_map.mp (upserts.written inside)
      exact same ▸ kept write there
    rw [← lastValue?_kept kept key_kept]
    exact upserts.values entry inside

/-! ### Dictionaries in the store -/

theorem entries_setEntries (update : Entries → Entries) (there : h < s.dictionaries.size) :
    (s.setEntries h update).entries h = update (s.entries h) := by
  rw [entries, entries, setEntries_dictionaries, Array.getElem?_modify, if_pos rfl,
    Array.getElem?_eq_getElem there]
  rfl

theorem sameAt_setEntries (update : Entries → Entries) (w : Value) (other : w ≠ .dictionary h) :
    s.SameAt (s.setEntries h update) w := by
  cases w with
  | dictionary g =>
    have apart : h ≠ g := fun same => other (same ▸ rfl)
    simp [SameAt, entries, setEntries_dictionaries, Array.getElem?_modify, apart]
  | list _ => exact rfl
  | number _ | string _ | boolean _ | null | function _ | builtIn _ | module _ => trivial

theorem kept_setEntries (update : Entries → Entries)
    (apart : ¬ReflTransGen (s.setEntries h update).Contains v (.dictionary h)) :
    s.Kept (s.setEntries h update) v := kept_of_apart (sameAt_setEntries update) apart

theorem entries_addDictionary (table : Entries) :
    (s.addDictionary table).2.entries s.dictionaries.size = table := by
  simp [entries, addDictionary]

theorem lt_addDictionary (table : Entries) :
    s.dictionaries.size < (s.addDictionary table).2.dictionaries.size := by
  simp [addDictionary]

theorem sameAt_addDictionary (table : Entries) (w : Value)
    (other : w ≠ .dictionary s.dictionaries.size) : s.SameAt (s.addDictionary table).2 w := by
  cases w with
  | dictionary g =>
    have apart : g ≠ s.dictionaries.size := fun same => other (same ▸ rfl)
    simp [SameAt, entries, addDictionary, Array.getElem?_push, apart]
  | list _ => exact rfl
  | number _ | string _ | boolean _ | null | function _ | builtIn _ | module _ => trivial

theorem kept_addDictionary
    (apart : ¬ReflTransGen (s.addDictionary table).2.Contains v (.dictionary s.dictionaries.size)) :
    s.Kept (s.addDictionary table).2 v := kept_of_apart (sameAt_addDictionary table) apart

/-- Writing to an entry does what inserting does: the position that is found first stays good. -/
theorem setItem_dictionary (h : Handle) (key value : Value) (s : Store) :
    setItem (.dictionary h) key value s = .ok () (s.setEntries h fun entries =>
      Entries.put entries (s.position? (s.entries h) key) key value) := rfl

/-- Where the entries of a dictionary are: with the one who makes it, or in the store. -/
inductive Site where
  | loose (entries : Entries)
  | stored (h : Handle)

namespace Site

def entries (s : Store) : Site → Entries
  | .loose table => table
  | .stored h => s.entries h

def Apart (s : Store) (v : Value) : Site → Prop
  | .loose _ => True
  | .stored h => ¬ReflTransGen s.Contains v (.dictionary h)

def There (s : Store) : Site → Prop
  | .loose _ => True
  | .stored h => h < s.dictionaries.size

theorem Apart.of_kept {site : Site} (kept : s.Kept t v) (apart : site.Apart t v) : site.Apart s v := by
  cases site with
  | loose _ => trivial
  | stored h => exact fun reaches => apart (kept.reaches_iff.mp reaches)

end Site

end BasicScript.Store
