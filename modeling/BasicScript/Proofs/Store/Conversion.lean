import BasicScript.Proofs.Store.Upsert

/-! Native tables as values. Converting a table keeps its shape: lists keep their items in order,
and maps become the dictionaries of their pairs. It fails just where a function stands inside of a
list or map. All that it makes is new and stands in one place, so two imports of a table have
nothing in common. -/

set_option autoImplicit false

namespace BasicScript

open Relation

variable {s t u w w' : Store}

/-! ### Functions inside of data -/

namespace NativeValue

variable {row : String} {items : List NativeValue} {entries : List (NativeValue × NativeValue)}

/-- What stands right in a list as an item, or in a map as a key or value. -/
inductive Part : NativeValue → NativeValue → Prop where
  | item {items : List NativeValue} {v : NativeValue} : v ∈ items → Part v (.list items)
  | key {entries : List (NativeValue × NativeValue)} {entry : NativeValue × NativeValue} :
    entry ∈ entries → Part entry.1 (.map entries)
  | value {entries : List (NativeValue × NativeValue)} {entry : NativeValue × NativeValue} :
    entry ∈ entries → Part entry.2 (.map entries)

def HasFunction (v : NativeValue) : Prop := ∃ action, ReflTransGen Part (.function action) v

def Nests (v : NativeValue) : Prop := ∃ action, TransGen Part (.function action) v

theorem nests_iff {v : NativeValue} : v.Nests ↔ ∃ part, part.HasFunction ∧ Part part v := by
  constructor
  · rintro ⟨action, deep⟩
    obtain ⟨part, there, last⟩ := TransGen.tail'_iff.mp deep
    exact ⟨part, ⟨action, there⟩, last⟩
  · rintro ⟨part, ⟨action, there⟩, last⟩
    exact ⟨action, .tail' there last⟩

theorem nests_list : (list items).Nests ↔ ∃ item ∈ items, item.HasFunction := by
  rw [nests_iff]
  constructor
  · rintro ⟨part, has, ⟨⟩⟩
    exact ⟨part, ‹_›, has⟩
  · rintro ⟨item, inside, has⟩
    exact ⟨item, has, .item inside⟩

theorem nests_map :
    (map entries).Nests ↔ ∃ entry ∈ entries, entry.1.HasFunction ∨ entry.2.HasFunction := by
  rw [nests_iff]
  constructor
  · rintro ⟨part, has, ⟨⟩⟩
    · exact ⟨_, ‹_›, .inl has⟩
    · exact ⟨_, ‹_›, .inr has⟩
  · rintro ⟨entry, inside, has | has⟩
    · exact ⟨_, has, .key inside⟩
    · exact ⟨_, has, .value inside⟩

theorem not_nests_of_leaf {v : NativeValue} (leaf : ∀ part, ¬Part part v) : ¬v.Nests := by
  rw [nests_iff]
  rintro ⟨part, _, inside⟩
  exact leaf part inside

theorem hasFunction_iff {v : NativeValue} :
    v.HasFunction ↔ (∃ action, v = .function action) ∨ v.Nests := by
  simp only [HasFunction, Nests, reflTransGen_iff_eq_or_transGen, exists_or]

theorem not_hasFunction_of_leaf {v : NativeValue} (leaf : ∀ part, ¬Part part v)
    (data : ∀ action, v ≠ .function action) : ¬v.HasFunction := by
  rw [hasFunction_iff]
  exact not_or.mpr ⟨not_exists.mpr data, not_nests_of_leaf leaf⟩

end NativeValue

/-! ### What has been made -/

namespace Value

def SameRow (s t : Store) : Value → Prop
  | .list h => s.lists[h]? = t.lists[h]?
  | .dictionary h => s.dictionaries[h]? = t.dictionaries[h]?
  | .function h => s.functions[h]? = t.functions[h]?
  | .builtIn h => s.builtIns[h]? = t.builtIns[h]?
  | .module h => s.modules[h]? = t.modules[h]?
  | .number _ | .string _ | .boolean _ | .null => True

/-- The container or native function is there in `t` and has not been there in `s`. -/
def New (s t : Store) : Value → Prop
  | .list h => s.lists.size ≤ h ∧ h < t.lists.size
  | .dictionary h => s.dictionaries.size ≤ h ∧ h < t.dictionaries.size
  | .builtIn h => s.builtIns.size ≤ h ∧ h < t.builtIns.size
  | .number _ | .string _ | .boolean _ | .null | .function _ | .module _ => False

variable {v : Value}

theorem SameRow.sameAt (same : v.SameRow s t) : s.SameAt t v := by
  cases v with
  | list h => exact congrArg (·.getD #[]) same
  | dictionary h => exact congrArg (·.getD #[]) same
  | number _ | string _ | boolean _ | null | function _ | builtIn _ | module _ => trivial

end Value

namespace Store

def SameBut (changed : List Value) (s t : Store) : Prop := ∀ v, v ∉ changed → v.SameRow s t

theorem sameBut_setItems {changed : List Value} {h : Handle} (inside : .list h ∈ changed)
    (update : Array Value → Array Value) : s.SameBut changed (s.setItems h update) := by
  intro v outside
  cases v with
  | list i =>
    have apart : h ≠ i := fun same => outside (same ▸ inside)
    show s.lists[i]? = (s.lists.modify h update)[i]?
    rw [Array.getElem?_modify, if_neg apart]
  | number _ | string _ | boolean _ | null => trivial
  | dictionary _ | function _ | builtIn _ | module _ => exact rfl

theorem sameBut_setEntries {changed : List Value} {h : Handle} (inside : .dictionary h ∈ changed)
    (update : Entries → Entries) : s.SameBut changed (s.setEntries h update) := by
  intro v outside
  cases v with
  | dictionary i =>
    have apart : h ≠ i := fun same => outside (same ▸ inside)
    show s.dictionaries[i]? = (s.dictionaries.modify h update)[i]?
    rw [Array.getElem?_modify, if_neg apart]
  | number _ | string _ | boolean _ | null => trivial
  | list _ | function _ | builtIn _ | module _ => exact rfl

theorem getElem?_eq_of_prefix {α : Type} {table later : Array α} {i : Nat}
    (grows : table.toList <+: later.toList) (inside : i < table.size) : table[i]? = later[i]? := by
  have found : table[i]? = some table[i] := Array.getElem?_eq_getElem inside
  have later_found := getElem?_of_prefix grows found
  exact found.trans later_found.symm

/-- From `s` to `t` the store has only grown, and among its new rows are these, each named once. -/
structure Makes (s t : Store) (made : List Value) : Prop where
  grown : s.Grown t
  larger : s.Extends t
  fresh : ∀ v ∈ made, v.New s t
  distinct : made.Nodup

namespace Makes

variable {made more : List Value} {v : Value}

theorem refl (s : Store) : s.Makes s [] := ⟨.refl s, .refl s, by simp, .nil⟩

theorem old (makes : s.Makes t made) (new : v.New t u) : v.New s u := by
  cases v with
  | list h => exact ⟨Nat.le_trans makes.larger.lists new.1, new.2⟩
  | dictionary h => exact ⟨Nat.le_trans makes.larger.dictionaries new.1, new.2⟩
  | builtIn h => exact ⟨Nat.le_trans makes.larger.builtIns.length_le new.1, new.2⟩
  | number _ | string _ | boolean _ | null | function _ | module _ => exact new

theorem still (makes : t.Makes u more) (new : v.New s t) : v.New s u := by
  cases v with
  | list h => exact ⟨new.1, Nat.lt_of_lt_of_le new.2 makes.larger.lists⟩
  | dictionary h => exact ⟨new.1, Nat.lt_of_lt_of_le new.2 makes.larger.dictionaries⟩
  | builtIn h => exact ⟨new.1, Nat.lt_of_lt_of_le new.2 makes.larger.builtIns.length_le⟩
  | number _ | string _ | boolean _ | null | function _ | module _ => exact new

/-- What is new in a store is not made again. -/
theorem apart (larger : t.Extends u) (new : v.New s t) : ¬v.New u w := by
  intro again
  cases v with
  | list h => exact Nat.not_lt_of_le (Nat.le_trans larger.lists again.1) new.2
  | dictionary h => exact Nat.not_lt_of_le (Nat.le_trans larger.dictionaries again.1) new.2
  | builtIn h => exact Nat.not_lt_of_le (Nat.le_trans larger.builtIns.length_le again.1) new.2
  | number _ | string _ | boolean _ | null | function _ | module _ => exact new

/-- What is new in a store is as it was once the store has grown further. -/
theorem sameRow (makes : t.Makes u more) (new : v.New s t) : v.SameRow t u := by
  cases v with
  | list h => exact getElem?_eq_of_prefix makes.grown.lists new.2
  | dictionary h => exact getElem?_eq_of_prefix makes.grown.dictionaries new.2
  | builtIn h => exact getElem?_eq_of_prefix makes.larger.builtIns new.2
  | number _ | string _ | boolean _ | null => trivial
  | function _ | module _ => exact new.elim

theorem disjoint (first : s.Makes t made) (larger : t.Extends u) (second : u.Makes w more) :
    made.Disjoint more :=
  fun v inside again => apart larger (first.fresh v inside) (second.fresh v again)

theorem trans (first : s.Makes t made) (second : t.Makes u more) : s.Makes u (made ++ more) where
  grown := first.grown.trans second.grown
  larger := first.larger.trans second.larger
  fresh := List.forall_mem_append.mpr ⟨fun v inside => second.still (first.fresh v inside),
    fun v inside => first.old (second.fresh v inside)⟩
  distinct := first.distinct.append second.distinct (first.disjoint (.refl t) second)

/-- One more row behind those already made. -/
theorem cons (makes : s.Makes t made) (last : t.Makes u [v]) : s.Makes u (v :: made) where
  grown := makes.grown.trans last.grown
  larger := makes.larger.trans last.larger
  fresh := List.forall_mem_cons.mpr ⟨makes.old (last.fresh v List.mem_cons_self),
    fun w inside => last.still (makes.fresh w inside)⟩
  distinct := by
    refine List.nodup_cons.mpr ⟨fun inside => ?_, makes.distinct⟩
    exact makes.disjoint (.refl t) last inside List.mem_cons_self

end Makes

theorem makes_addList (items : Array Value) :
    s.Makes (s.addList items).2 [(s.addList items).1] where
  grown := grown_addList items
  larger := extends_addList items
  fresh := by simp [addList, Value.New]
  distinct := List.nodup_singleton _

theorem makes_addDictionary (table : Entries) :
    s.Makes (s.addDictionary table).2 [(s.addDictionary table).1] where
  grown := grown_addDictionary table
  larger := extends_addDictionary table
  fresh := by simp [addDictionary, Value.New]
  distinct := List.nodup_singleton _

theorem makes_addBuiltIn (b : BuiltIn) : s.Makes (s.addBuiltIn b).2 [(s.addBuiltIn b).1] where
  grown := ⟨List.prefix_rfl, List.prefix_rfl⟩
  larger := extends_addBuiltIn b
  fresh := by simp [addBuiltIn, Value.New]
  distinct := List.nodup_singleton _

/-! ### Dictionaries of pairs -/

section Pairs

variable {pairs : List (Value × Value)} {found : Entries} {v : Value}

theorem forall_foldl_insert {P : Value → Prop} (all : ∀ entry ∈ found, P entry.1 ∧ P entry.2)
    (fits : ∀ pair ∈ pairs, P pair.1 ∧ P pair.2) :
    ∀ entry ∈ pairs.foldl (fun entries pair => s.insert entries pair.1 pair.2) found,
      P entry.1 ∧ P entry.2 := by
  induction pairs generalizing found with
  | nil => exact all
  | cons pair rest ih =>
    obtain ⟨first, fits⟩ := List.forall_mem_cons.mp fits
    exact ih (Entries.forall_put all first.1 first.2) fits

/-- Where a key is inserted depends on nothing but what is inside of the keys. -/
theorem insert_kept {key value : Value} (old : ∀ entry ∈ found, s.Kept t entry.1 ∧ s.Kept t entry.2)
    (kept : s.Kept t key) : s.insert found key value = t.insert found key value := by
  refine congrArg (found.put · key value) ?_
  obtain ⟨entries⟩ := found
  rw [position?, position?, List.findIdx?_toArray, List.findIdx?_toArray]
  induction entries with
  | nil => rfl
  | cons entry rest ih =>
    have same : s.equal entry.1 key = t.equal entry.1 key := (old entry (by simp)).1.equal kept
    rw [List.findIdx?_cons, List.findIdx?_cons, same, ih fun other inside => old other (by simp_all)]

theorem foldl_insert_kept (old : ∀ entry ∈ found, s.Kept t entry.1 ∧ s.Kept t entry.2)
    (kept : ∀ pair ∈ pairs, s.Kept t pair.1 ∧ s.Kept t pair.2) :
    pairs.foldl (fun entries pair => s.insert entries pair.1 pair.2) found =
      pairs.foldl (fun entries pair => t.insert entries pair.1 pair.2) found := by
  induction pairs generalizing found with
  | nil => rfl
  | cons pair rest ih =>
    obtain ⟨first, kept⟩ := List.forall_mem_cons.mp kept
    rw [List.foldl_cons, List.foldl_cons, ← insert_kept old first.1]
    exact ih (Entries.forall_put old first.1 first.2) kept

theorem Kept.trans (first : s.Kept t v) (second : t.Kept u v) : s.Kept u v :=
  fun x reaches => (first x reaches).trans (second x (first.reaches_iff.mp reaches))

/-- A value is kept if it and all that stands in it are. -/
theorem Kept.of_contains (same : s.SameAt t v) (inside : ∀ x, s.Contains v x → s.Kept t x) :
    s.Kept t v := by
  intro x reaches
  rcases ReflTransGen.cases_head reaches with rfl | ⟨y, here, reaches⟩
  · exact same
  · exact inside y here x reaches

theorem Kept.of_plain (plain : v.isPlain = true) : s.Kept t v := by
  cases v with
  | number _ | string _ | boolean _ | null => exact .of_contains trivial fun _ inside => inside.elim
  | list _ | dictionary _ | function _ | builtIn _ | module _ => cases plain

def Settled (s : Store) (v : Value) : Prop := ∀ t made, s.Makes t made → s.Kept t v

theorem Settled.mono {made : List Value} (settled : s.Settled v) (makes : s.Makes t made) : t.Settled v :=
  fun u _ further => (settled t made makes).symm.trans (settled u _ (makes.trans further))

end Pairs

end Store

/-! ### Data as values -/

mutual

/-- The value stands for the data in the store, and `made` lists the containers that it is made of.
A container that stood in two places would be listed twice. -/
inductive NativeValue.StoredAs (t : Store) : NativeValue → Value → List Value → Prop where
  | number (n : Number) : StoredAs t (.number n) (.number n) []
  | text (chars : String) : StoredAs t (.text chars) (.string chars) []
  | boolean (b : Bool) : StoredAs t (.boolean b) (.boolean b) []
  | null : StoredAs t .null .null []
  | list {items : List NativeValue} {values made : List Value} {h : Handle} :
    NativeValue.ItemsStoredAs t items values made → t.lists[h]? = some values.toArray →
      StoredAs t (.list items) (.list h) (.list h :: made)
  | map {entries : List (NativeValue × NativeValue)} {pairs : List (Value × Value)} {made : List Value}
      {h : Handle} :
    NativeValue.PairsStoredAs t entries pairs made → t.dictionaries[h]? = some (t.collect pairs) →
      StoredAs t (.map entries) (.dictionary h) (.dictionary h :: made)

inductive NativeValue.ItemsStoredAs (t : Store) : List NativeValue → List Value → List Value → Prop where
  | nil : ItemsStoredAs t [] [] []
  | cons {item : NativeValue} {items : List NativeValue} {value : Value} {values made more : List Value} :
    NativeValue.StoredAs t item value made → ItemsStoredAs t items values more →
      ItemsStoredAs t (item :: items) (value :: values) (made ++ more)

inductive NativeValue.PairsStoredAs (t : Store) :
    List (NativeValue × NativeValue) → List (Value × Value) → List Value → Prop where
  | nil : PairsStoredAs t [] [] []
  | cons {entry : NativeValue × NativeValue} {entries : List (NativeValue × NativeValue)}
      {pair : Value × Value} {pairs : List (Value × Value)} {keys values more : List Value} :
    NativeValue.StoredAs t entry.1 pair.1 keys → NativeValue.StoredAs t entry.2 pair.2 values →
      PairsStoredAs t entries pairs more →
      PairsStoredAs t (entry :: entries) (pair :: pairs) (keys ++ values ++ more)

end

namespace NativeValue

/-! Only what is made for the data is inside of the value that stands for it. -/

mutual

theorem StoredAs.kept : ∀ {v : NativeValue} {value : Value} {made : List Value},
    v.StoredAs t value made → (∀ c ∈ made, c.SameRow t u) → t.Kept u value
  | _, _, _, .number _, _ | _, _, _, .text _, _ | _, _, _, .boolean _, _ | _, _, _, .null, _ =>
    .of_plain rfl
  | _, _, _, @StoredAs.list _ _ values _ _ stored found, same => by
    obtain ⟨here, same⟩ := List.forall_mem_cons.mp same
    refine .of_contains here.sameAt fun x inside => ?_
    have inside : x ∈ values := by simpa [Store.Contains, Store.items, found] using inside
    exact stored.kept same x inside
  | _, _, _, @StoredAs.map _ _ pairs _ _ stored found, same => by
    obtain ⟨here, same⟩ := List.forall_mem_cons.mp same
    refine .of_contains here.sameAt fun x inside => ?_
    have kept : ∀ entry ∈ t.collect pairs, t.Kept u entry.1 ∧ t.Kept u entry.2 :=
      Store.forall_foldl_insert (by simp) (stored.kept same)
    obtain ⟨entry, inside, rfl | rfl⟩ := inside
    · exact (kept entry (by simpa [Store.entries, found] using inside)).1
    · exact (kept entry (by simpa [Store.entries, found] using inside)).2

theorem ItemsStoredAs.kept : ∀ {items : List NativeValue} {values made : List Value},
    ItemsStoredAs t items values made → (∀ c ∈ made, c.SameRow t u) → ∀ value ∈ values, t.Kept u value
  | _, _, _, .nil, _ => by simp
  | _, _, _, .cons first rest, same =>
    have ⟨same, same'⟩ := List.forall_mem_append.mp same
    List.forall_mem_cons.mpr ⟨first.kept same, rest.kept same'⟩

theorem PairsStoredAs.kept : ∀ {entries : List (NativeValue × NativeValue)} {pairs : List (Value × Value)}
    {made : List Value}, PairsStoredAs t entries pairs made → (∀ c ∈ made, c.SameRow t u) →
      ∀ pair ∈ pairs, t.Kept u pair.1 ∧ t.Kept u pair.2
  | _, _, _, .nil, _ => by simp
  | _, _, _, .cons key value rest, same =>
    have ⟨same, same'⟩ := List.forall_mem_append.mp same
    have ⟨keys, values⟩ := List.forall_mem_append.mp same
    List.forall_mem_cons.mpr ⟨⟨key.kept keys, value.kept values⟩, rest.kept same'⟩

end

theorem StoredAs.settled {v : NativeValue} {value : Value} {made : List Value}
    (stored : v.StoredAs t value made) (fresh : ∀ c ∈ made, c.New s t) : t.Settled value :=
  fun _ _ makes => stored.kept fun c inside => makes.sameRow (fresh c inside)

/-! Data is stored in all stores that agree on what has been made for it. -/

mutual

theorem StoredAs.moved : ∀ {v : NativeValue} {value : Value} {made : List Value},
    v.StoredAs t value made → (∀ c ∈ made, c.SameRow t u) → v.StoredAs u value made
  | _, _, _, .number n, _ => .number n
  | _, _, _, .text chars, _ => .text chars
  | _, _, _, .boolean b, _ => .boolean b
  | _, _, _, .null, _ => .null
  | _, _, _, .list stored found, same => by
    obtain ⟨here, same⟩ := List.forall_mem_cons.mp same
    exact .list (stored.moved same) (here.symm.trans found)
  | _, _, _, .map stored found, same => by
    obtain ⟨here, same⟩ := List.forall_mem_cons.mp same
    refine .map (stored.moved same) (here.symm.trans (found.trans (congrArg some ?_)))
    exact Store.foldl_insert_kept (by simp) (stored.kept same)

theorem ItemsStoredAs.moved : ∀ {items : List NativeValue} {values made : List Value},
    ItemsStoredAs t items values made → (∀ c ∈ made, c.SameRow t u) → ItemsStoredAs u items values made
  | _, _, _, .nil, _ => .nil
  | _, _, _, .cons first rest, same =>
    have ⟨same, same'⟩ := List.forall_mem_append.mp same
    .cons (first.moved same) (rest.moved same')

theorem PairsStoredAs.moved : ∀ {entries : List (NativeValue × NativeValue)} {pairs : List (Value × Value)}
    {made : List Value}, PairsStoredAs t entries pairs made → (∀ c ∈ made, c.SameRow t u) →
      PairsStoredAs u entries pairs made
  | _, _, _, .nil, _ => .nil
  | _, _, _, .cons key value rest, same =>
    have ⟨same, same'⟩ := List.forall_mem_append.mp same
    have ⟨keys, values⟩ := List.forall_mem_append.mp same
    .cons (key.moved keys) (value.moved values) (rest.moved same')

end

/-! Data with a function inside is not stored as anything. -/

mutual

theorem StoredAs.not_hasFunction : ∀ {v : NativeValue} {value : Value} {made : List Value},
    v.StoredAs t value made → ¬v.HasFunction
  | _, _, _, .number _ | _, _, _, .text _ | _, _, _, .boolean _ | _, _, _, .null =>
    not_hasFunction_of_leaf nofun nofun
  | _, _, _, .list stored _ => by
    simpa [hasFunction_iff, nests_list] using stored.not_hasFunction
  | _, _, _, .map stored _ => by
    simpa [hasFunction_iff, nests_map] using stored.not_hasFunction

theorem ItemsStoredAs.not_hasFunction : ∀ {items : List NativeValue} {values made : List Value},
    ItemsStoredAs t items values made → ∀ item ∈ items, ¬item.HasFunction
  | _, _, _, .nil => by simp
  | _, _, _, .cons first rest => List.forall_mem_cons.mpr ⟨first.not_hasFunction, rest.not_hasFunction⟩

theorem PairsStoredAs.not_hasFunction : ∀ {entries : List (NativeValue × NativeValue)}
    {pairs : List (Value × Value)} {made : List Value}, PairsStoredAs t entries pairs made →
      ∀ entry ∈ entries, ¬(entry.1.HasFunction ∨ entry.2.HasFunction)
  | _, _, _, .nil => by simp
  | _, _, _, .cons key value rest => List.forall_mem_cons.mpr
    ⟨not_or.mpr ⟨key.not_hasFunction, value.not_hasFunction⟩, rest.not_hasFunction⟩

end

end NativeValue

/-! ### Conversion -/

def Act.Ends {α : Type} (faults : Fault → Prop) (good : α → Store → Prop) :
    EStateM.Result Fault Store α → Prop
  | .ok a t => good a t
  | .error fault _ => faults fault

theorem Act.Ends.bind {α β : Type} {faults faults' : Fault → Prop} {good : α → Store → Prop}
    {good' : β → Store → Prop} {first : Act α} {rest : α → Act β} (begins : Act.Ends faults good (first s))
    (fails : ∀ fault, faults fault → faults' fault)
    (continues : ∀ a t, good a t → Act.Ends faults' good' (rest a t)) :
    Act.Ends faults' good' ((first >>= rest) s) := by
  cases ended : first s with
  | ok a t =>
    rw [bind_of_ok ended]
    exact continues a t (by rwa [ended] at begins)
  | error fault t =>
    rw [bind_of_error ended]
    exact fails fault (by rwa [ended] at begins)

theorem Act.Ends.mono {α : Type} {faults faults' : Fault → Prop} {good good' : α → Store → Prop}
    {outcome : EStateM.Result Fault Store α} (ends : Act.Ends faults good outcome)
    (fails : ∀ fault, faults fault → faults' fault) (weaker : ∀ a t, good a t → good' a t) :
    Act.Ends faults' good' outcome := by
  cases outcome with
  | ok a t => exact weaker a t ends
  | error fault _ => exact fails fault ends

namespace NativeValue

variable {row : String}

abbrev Refused (row : String) (nested : Prop) (fault : Fault) : Prop :=
  fault = .nestedFunction row ∧ nested

mutual

/-- Data is converted to new containers that stand for it, unless there is a function in it. -/
theorem data_ends : ∀ {s : Store} (v : NativeValue), Act.Ends (Refused row v.HasFunction)
    (fun value t => ∃ made, v.StoredAs t value made ∧ s.Makes t made) (v.data row s)
  | s, .number n => by
    rw [data]
    exact ⟨[], .number n, .refl s⟩
  | s, .text chars => by
    rw [data]
    exact ⟨[], .text chars, .refl s⟩
  | s, .boolean b => by
    rw [data]
    exact ⟨[], .boolean b, .refl s⟩
  | s, .null => by
    rw [data]
    exact ⟨[], .null, .refl s⟩
  | s, .list items => by
    rw [data]
    refine .bind (dataItems_ends items) (fun fault => .imp_right fun nested => ?_) fun found t => ?_
    · exact hasFunction_iff.mpr (.inr (nests_list.mpr nested))
    rintro ⟨values, made, built, stored, makes⟩
    obtain rfl : found = values.toArray := by simpa using built
    have last := Store.makes_addList (s := t) values.toArray
    have same : ∀ c ∈ made, c.SameRow t (t.addList values.toArray).2 :=
      fun c inside => last.sameRow (makes.fresh c inside)
    exact ⟨_, .list (stored.moved same) Array.getElem?_push_size, makes.cons last⟩
  | s, .map entries => by
    rw [data]
    refine .bind (dataEntries_ends entries (by simp)) (fun fault => .imp_right fun nested => ?_)
      fun found t => ?_
    · exact hasFunction_iff.mpr (.inr (nests_map.mpr nested))
    rintro ⟨pairs, made, built, stored, makes⟩
    obtain rfl : found = t.collect pairs := built
    have last := Store.makes_addDictionary (s := t) (t.collect pairs)
    have same : ∀ c ∈ made, c.SameRow t (t.addDictionary (t.collect pairs)).2 :=
      fun c inside => last.sameRow (makes.fresh c inside)
    refine ⟨_, .map (stored.moved same) ?_, makes.cons last⟩
    have kept : t.collect pairs = (t.addDictionary (t.collect pairs)).2.collect pairs :=
      Store.foldl_insert_kept (by simp) (stored.kept same)
    exact Array.getElem?_push_size.trans (congrArg some kept)
  | _, .function action => by
    rw [data]
    exact ⟨rfl, action, .refl⟩

theorem dataItems_ends : ∀ {s : Store} (items : List NativeValue) {found : Array Value},
    Act.Ends (Refused row (∃ item ∈ items, item.HasFunction))
      (fun values t => ∃ more made, values = found ++ more.toArray ∧ ItemsStoredAs t items more made ∧
        s.Makes t made) (dataItems row items found s)
  | s, [], found => by
    rw [dataItems]
    exact ⟨[], [], by simp, .nil, .refl s⟩
  | s, item :: rest, found => by
    rw [dataItems]
    refine .bind (data_ends item) (fun fault => .imp_right fun has => ⟨item, by simp, has⟩)
      fun value t => ?_
    rintro ⟨made, stored, makes⟩
    refine (dataItems_ends rest).mono (fun fault => .imp_right fun ⟨other, inside, has⟩ =>
      ⟨other, by simp [inside], has⟩) fun values u => ?_
    rintro ⟨more, made', built, stored', makes'⟩
    refine ⟨value :: more, made ++ made', by simp [built], .cons ?_ stored', makes.trans makes'⟩
    exact stored.moved fun c inside => makes'.sameRow (makes.fresh c inside)

theorem dataEntries_ends : ∀ {s : Store} (entries : List (NativeValue × NativeValue)) {found : Entries},
    (∀ entry ∈ found, s.Settled entry.1 ∧ s.Settled entry.2) →
    Act.Ends (Refused row (∃ entry ∈ entries, entry.1.HasFunction ∨ entry.2.HasFunction))
      (fun table t => ∃ pairs made,
        table = pairs.foldl (fun table pair => t.insert table pair.1 pair.2) found ∧
          PairsStoredAs t entries pairs made ∧ s.Makes t made) (dataEntries row entries found s)
  | s, [], found, _ => by
    rw [dataEntries]
    exact ⟨[], [], rfl, .nil, .refl s⟩
  | s, entry :: rest, found, old => by
    rw [dataEntries]
    refine .bind (data_ends entry.1) (fun fault => .imp_right fun has => ⟨entry, by simp, .inl has⟩)
      fun key t => ?_
    rintro ⟨keys, key_stored, key_makes⟩
    refine .bind (data_ends entry.2) (fun fault => .imp_right fun has => ⟨entry, by simp, .inr has⟩)
      fun value u => ?_
    rintro ⟨values, value_stored, value_makes⟩
    have makes := key_makes.trans value_makes
    have key_stored := key_stored.moved fun c inside => value_makes.sameRow (key_makes.fresh c inside)
    have key_fresh : ∀ c ∈ keys, c.New s u := fun c inside => makes.fresh c (by simp [inside])
    have value_fresh : ∀ c ∈ values, c.New s u := fun c inside => makes.fresh c (by simp [inside])
    have key_settled := key_stored.settled key_fresh
    have old : ∀ other ∈ found, u.Settled other.1 ∧ u.Settled other.2 :=
      fun other inside => ⟨(old other inside).1.mono makes, (old other inside).2.mono makes⟩
    have settled : ∀ other ∈ u.insert found key value, u.Settled other.1 ∧ u.Settled other.2 :=
      Entries.forall_put old key_settled (value_stored.settled value_fresh)
    refine (dataEntries_ends rest settled).mono (fun fault => .imp_right fun ⟨other, inside, has⟩ =>
      ⟨other, by simp [inside], has⟩) fun table w => ?_
    rintro ⟨pairs, made, built, stored, makes'⟩
    have kept : ∀ other ∈ found, u.Kept w other.1 ∧ u.Kept w other.2 :=
      fun other inside => ⟨(old other inside).1 w made makes', (old other inside).2 w made makes'⟩
    -- the entry is where it would be put in the last store, since no key changes on the way there
    have same : u.insert found key value = w.insert found key value :=
      Store.insert_kept kept (key_settled w made makes')
    refine ⟨(key, value) :: pairs, keys ++ values ++ made, ?_, .cons ?_ ?_ stored, makes.trans makes'⟩
    · rw [List.foldl_cons, ← same]
      exact built
    · exact key_stored.moved fun c inside => makes'.sameRow (key_fresh c inside)
    · exact value_stored.moved fun c inside => makes'.sameRow (value_fresh c inside)

end

end NativeValue

/-! ### Tables -/

/-- The export stands for the row in the store, and `made` lists what it is made of. A function may
stand as the value of a row, and becomes a built-in that has the name and arity of the row. -/
inductive NativeRow.StoredAs (t : Store) (row : NativeRow) : Export → List Value → Prop where
  | data {value : Value} {made : List Value} : row.value.StoredAs t value made →
    StoredAs t row ⟨row.name, value, row.constant⟩ made
  | function {action : Action} {h : Handle} : row.value = .function action →
    t.builtIns[h]? = some ⟨row.name, row.arity, action⟩ →
      StoredAs t row ⟨row.name, .builtIn h, row.constant⟩ [.builtIn h]

inductive NativeRow.AllStoredAs (t : Store) : List NativeRow → List Export → List Value → Prop where
  | nil : AllStoredAs t [] [] []
  | cons {row : NativeRow} {rows : List NativeRow} {e : Export} {exports : List Export}
      {made more : List Value} : row.StoredAs t e made → AllStoredAs t rows exports more →
    AllStoredAs t (row :: rows) (e :: exports) (made ++ more)

namespace NativeRow

variable {row : NativeRow} {rows : List NativeRow} {e : Export} {exports : List Export}
  {made : List Value}

theorem StoredAs.moved (stored : row.StoredAs t e made) (same : ∀ c ∈ made, c.SameRow t u) :
    row.StoredAs u e made := by
  cases stored with
  | data stored => exact .data (stored.moved same)
  | @function action h is found =>
    have here : Value.SameRow t u (.builtIn h) := same _ List.mem_cons_self
    exact .function is (here.symm.trans found)

theorem AllStoredAs.moved (stored : AllStoredAs t rows exports made) (same : ∀ c ∈ made, c.SameRow t u) :
    AllStoredAs u rows exports made := by
  induction stored with
  | nil => exact .nil
  | cons first _ ih =>
    obtain ⟨same, same'⟩ := List.forall_mem_append.mp same
    exact .cons (first.moved same) (ih same')

theorem StoredAs.not_nests (stored : row.StoredAs t e made) : ¬row.value.Nests := by
  cases stored with
  | data stored => exact mt (NativeValue.hasFunction_iff.mpr ∘ .inr) stored.not_hasFunction
  | function is _ => exact is ▸ NativeValue.not_nests_of_leaf nofun

theorem AllStoredAs.not_nests (stored : AllStoredAs t rows exports made) :
    ∀ row ∈ rows, ¬row.value.Nests := by
  induction stored with
  | nil => simp
  | cons first _ ih => exact List.forall_mem_cons.mpr ⟨first.not_nests, ih⟩

end NativeRow

namespace NativeModule

/-- A row is converted to what stands for it, unless a function stands inside of its value. -/
theorem convert_ends (row : NativeRow) : Act.Ends (NativeValue.Refused row.name row.value.Nests)
    (fun value t => ∃ made, row.StoredAs t ⟨row.name, value, row.constant⟩ made ∧ s.Makes t made)
    (convert row s) := by
  unfold convert
  cases is : row.value with
  | function action =>
    refine ⟨_, .function is ?_, Store.makes_addBuiltIn ⟨row.name, row.arity, action⟩⟩
    exact Array.getElem?_push_size
  | number _ | text _ | boolean _ | null | list _ | map _ =>
    refine (NativeValue.data_ends _).mono (fun fault => .imp_right fun has => ?_) fun value t => ?_
    · exact (NativeValue.hasFunction_iff.mp has).resolve_left nofun
    · exact fun ⟨made, stored, makes⟩ => ⟨made, .data (is ▸ stored), makes⟩

/-- The first row with a function inside of its value is refused, and else all rows are
converted. -/
theorem exportsFrom_ends (rows : List NativeRow) : Act.Ends
    (fun fault => ∃ above row below, rows = above ++ row :: below ∧
      (∀ other ∈ above, ¬other.value.Nests) ∧ row.value.Nests ∧ fault = .nestedFunction row.name)
    (fun exports t => ∃ made, NativeRow.AllStoredAs t rows exports made ∧ s.Makes t made)
    (exportsFrom rows s) := by
  induction rows generalizing s with
  | nil => exact ⟨[], .nil, .refl s⟩
  | cons row rest ih =>
    refine .bind (convert_ends row) (fun fault ⟨is, nested⟩ => ⟨[], row, rest, rfl, by simp, nested, is⟩)
      fun value t => ?_
    rintro ⟨made, stored, makes⟩
    refine .bind ih ?_ fun exports u => ?_
    · rintro fault ⟨above, bad, below, rfl, good, nested, is⟩
      refine ⟨row :: above, bad, below, rfl, ?_, nested, is⟩
      exact List.forall_mem_cons.mpr ⟨stored.not_nests, good⟩
    · rintro ⟨more, others, makes'⟩
      refine ⟨made ++ more, .cons ?_ others, makes.trans makes'⟩
      exact stored.moved fun c inside => makes'.sameRow (makes.fresh c inside)

variable {m : NativeModule}

theorem exports_refused {fault : Fault} (failed : m.exports s = .error fault t) :
    ∃ above row below, m.rows = above ++ row :: below ∧ (∀ other ∈ above, ¬other.value.Nests) ∧
      row.value.Nests ∧ fault = .nestedFunction row.name := by
  have ends := exportsFrom_ends (s := s) m.rows
  rw [exports] at failed
  rwa [failed] at ends

theorem exports_stored {exports : List Export} (done : m.exports s = .ok exports t) :
    ∃ made, NativeRow.AllStoredAs t m.rows exports made ∧ s.Makes t made := by
  have ends := exportsFrom_ends (s := s) m.rows
  rw [NativeModule.exports] at done
  rwa [done] at ends

/-- Native tables are converted faithfully or not at all. The exports are refused just if a function
stands inside of a list or map, and the fault names the first such row. Otherwise they stand for the
rows of the table in order, and whatever they are made of is new and stands in one place. What
another import has made has nothing in common with it, so each of the two still stands for the table
when nothing but what the other has made is changed. -/
theorem exports_faithful (m : NativeModule) (s : Store) :
    ((∃ fault t, m.exports s = .error fault t) ↔ ∃ row ∈ m.rows, row.value.Nests) ∧
      (∀ fault t, m.exports s = .error fault t → ∃ above row below, m.rows = above ++ row :: below ∧
        (∀ other ∈ above, ¬other.value.Nests) ∧ row.value.Nests ∧ fault.kind = .valueError ∧
          fault.message = s!"Native module variable '{row.name}' nests a function inside a list or map") ∧
      ∀ exports t, m.exports s = .ok exports t → ∃ made, NativeRow.AllStoredAs t m.rows exports made ∧
        s.Makes t made ∧ ∀ u exports' u', t.Extends u → m.exports u = .ok exports' u' →
          ∃ made', NativeRow.AllStoredAs u' m.rows exports' made' ∧ u.Makes u' made' ∧ made.Disjoint made' ∧
            ∀ w w', (w.SameBut made w' → NativeRow.AllStoredAs w m.rows exports' made' →
              NativeRow.AllStoredAs w' m.rows exports' made') ∧
              (w.SameBut made' w' → NativeRow.AllStoredAs w m.rows exports made →
                NativeRow.AllStoredAs w' m.rows exports made) := by
  refine ⟨⟨?_, ?_⟩, ?_, ?_⟩
  · rintro ⟨fault, t, failed⟩
    obtain ⟨above, row, below, rows, _, nested, _⟩ := exports_refused failed
    exact ⟨row, by simp [rows], nested⟩
  · rintro ⟨row, inside, nested⟩
    cases ended : m.exports s with
    | error fault t => exact ⟨fault, t, rfl⟩
    | ok exports t =>
      obtain ⟨made, stored, _⟩ := exports_stored ended
      exact absurd nested (stored.not_nests row inside)
  · intro fault t failed
    obtain ⟨above, row, below, rows, good, nested, rfl⟩ := exports_refused failed
    exact ⟨above, row, below, rows, good, nested, rfl, rfl⟩
  · intro exports t done
    obtain ⟨made, stored, makes⟩ := exports_stored done
    refine ⟨made, stored, makes, fun u exports' u' larger again => ?_⟩
    obtain ⟨made', stored', makes'⟩ := exports_stored again
    have disjoint := makes.disjoint larger makes'
    refine ⟨made', stored', makes', disjoint, fun w w' => ⟨fun same here => ?_, fun same here => ?_⟩⟩
    · exact here.moved fun c inside => same c fun also => disjoint also inside
    · exact here.moved fun c inside => same c fun also => disjoint inside also

def twofold : NativeModule :=
  let entries := [(.number (.int 1), .list [.text "a"]), (.boolean true, .list [])]
  ⟨"data", [⟨"table", .map entries, true, none⟩, ⟨"letters", .list [.text "b"], false, none⟩]⟩

/-- What is done to the dictionary and the list of one import is not seen by the next. -/
theorem exports_faithful_emptied :
    let exports (table letters : Handle) : List Export :=
      [⟨"table", .dictionary table, true⟩, ⟨"letters", .list letters, false⟩]
    ∃ t u made, twofold.exports {} = .ok (exports 0 2) t ∧ twofold.exports t = .ok (exports 1 5) u ∧
      u.entries 1 = #[(.number (.int 1), .list 4)] ∧ NativeRow.AllStoredAs
        ((u.setEntries 0 fun _ => #[]).setItems 2 (·.push .null)) twofold.rows (exports 1 5) made := by
  intro exports
  let lists : Array (Array Value) := #[#[.string "a"], #[], #[.string "b"]]
  let table (h : Handle) : Entries := #[(.number (.int 1), .list h)]
  have first : twofold.exports {} = .ok (exports 0 2) { lists := lists, dictionaries := #[table 1] } := by
    with_unfolding_all rfl
  have second : twofold.exports { lists := lists, dictionaries := #[table 1] } =
      .ok (exports 1 5) { lists := lists ++ lists, dictionaries := #[table 1, table 4] } := by
    with_unfolding_all rfl
  obtain ⟨made, stored, _, next⟩ := (exports_faithful twofold {}).2.2 _ _ first
  obtain ⟨made', stored', _, _, apart⟩ := next _ _ _ (.refl _) second
  have inside : .dictionary 0 ∈ made ∧ .list 2 ∈ made := by
    cases stored with
    | cons first rest =>
      cases first with
      | data first =>
        cases first with
        | map _ _ =>
          cases rest with
          | cons second _ =>
            cases second with
            | data second =>
              cases second with
              | list _ _ => simp
  have emptied := (apart _ _).1 (Store.sameBut_setEntries inside.1 fun _ => #[]) stored'
  have pushed := (apart _ _).1 (Store.sameBut_setItems inside.2 (·.push .null)) emptied
  exact ⟨_, _, made', first, second, rfl, pushed⟩

end NativeModule

end BasicScript
