import BasicScript.Store.Scope

/-! How the tables of a store grow. No table ever gets shorter, and what stands in the tables of
functions, built-ins and modules never changes, so a handle that is valid stays valid. -/

set_option autoImplicit false

namespace BasicScript.Store

variable (s : Store) (h : Handle)

@[simp] theorem setScope_scopes (update : Scope → Scope) :
    (s.setScope h update).scopes = s.scopes.modify h update := rfl

@[simp] theorem setItems_lists (update : Array Value → Array Value) :
    (s.setItems h update).lists = s.lists.modify h update := rfl

@[simp] theorem setEntries_dictionaries (update : Entries → Entries) :
    (s.setEntries h update).dictionaries = s.dictionaries.modify h update := rfl

/-- All handles of `s` are handles of `t`, and they mean the same functions, built-ins and
modules there. -/
structure Extends (s t : Store) : Prop where
  scopes : s.scopes.size ≤ t.scopes.size
  lists : s.lists.size ≤ t.lists.size
  dictionaries : s.dictionaries.size ≤ t.dictionaries.size
  functions : s.functions.toList <+: t.functions.toList
  builtIns : s.builtIns.toList <+: t.builtIns.toList
  modules : s.modules.toList <+: t.modules.toList

namespace Extends

theorem refl (s : Store) : s.Extends s :=
  ⟨Nat.le_refl _, Nat.le_refl _, Nat.le_refl _, List.prefix_rfl, List.prefix_rfl,
    List.prefix_rfl⟩

theorem trans {s t u : Store} (first : s.Extends t) (second : t.Extends u) : s.Extends u where
  scopes := Nat.le_trans first.scopes second.scopes
  lists := Nat.le_trans first.lists second.lists
  dictionaries := Nat.le_trans first.dictionaries second.dictionaries
  functions := first.functions.trans second.functions
  builtIns := first.builtIns.trans second.builtIns
  modules := first.modules.trans second.modules

theorem functions_size {s t : Store} (grows : s.Extends t) :
    s.functions.size ≤ t.functions.size := grows.functions.length_le

end Extends

variable {s h}

/-- What stands in a table keeps its place when more is put behind it. -/
theorem getElem?_of_prefix {α : Type} {table later : Array α} {i : Nat} {a : α}
    (grows : table.toList <+: later.toList) (found : table[i]? = some a) :
    later[i]? = some a := by
  obtain ⟨rest, whole⟩ := grows
  rw [← Array.getElem?_toList] at found ⊢
  rw [← whole, List.getElem?_append_left (List.getElem?_eq_some_iff.mp found).1, found]

theorem extends_setScope (update : Scope → Scope) : s.Extends (s.setScope h update) :=
  { Extends.refl s with scopes := by simp }

theorem extends_setItems (update : Array Value → Array Value) :
    s.Extends (s.setItems h update) :=
  { Extends.refl s with lists := by simp }

theorem extends_setEntries (update : Entries → Entries) : s.Extends (s.setEntries h update) :=
  { Extends.refl s with dictionaries := by simp }

theorem extends_addScope (parent : Option Handle) : s.Extends (s.addScope parent).2 :=
  { Extends.refl s with scopes := by simp [addScope] }

theorem extends_addList (items : Array Value) : s.Extends (s.addList items).2 :=
  { Extends.refl s with lists := by simp [addList] }

theorem extends_addDictionary (entries : Entries) : s.Extends (s.addDictionary entries).2 :=
  { Extends.refl s with dictionaries := by simp [addDictionary] }

theorem extends_addFunction (f : Function) : s.Extends (s.addFunction f).2 :=
  { Extends.refl s with functions := by simp [addFunction] }

theorem extends_addBuiltIn (b : BuiltIn) : s.Extends (s.addBuiltIn b).2 :=
  { Extends.refl s with builtIns := by simp [addBuiltIn] }

theorem extends_addModule (m : Exports) : s.Extends (s.addModule m).2 :=
  { Extends.refl s with modules := by simp [addModule] }

end BasicScript.Store
