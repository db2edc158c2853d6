import BasicScript.BuiltIn
import BasicScript.Node
import Std.Data.TreeMap.Lemmas

/-! The store: what handles stand for. Each table only grows, and a handle is an index into its
table, so two values with one handle share their contents and a new handle is equal to no older one.
-/

set_option autoImplicit false

namespace BasicScript

structure Variable where
  value : Value
  constant : Bool
  /-- Declared by the interpreter and not by a script; such names are not exported. -/
  builtIn : Bool
  deriving DecidableEq, Inhabited

structure Slot where
  name : String
  value : Value
  constant : Bool
  builtIn : Bool
  deriving DecidableEq, Inhabited

/-- One table of variables: each under its name, and the names in the order of their declaration. -/
structure Scope where
  parent : Option Handle
  table : Std.TreeMap String Variable
  order : List String
  distinct : order.Nodup
  listed : ∀ name, name ∈ order ↔ name ∈ table

def Scope.empty (parent : Option Handle) : Scope where
  parent := parent
  table := ∅
  order := []
  distinct := List.nodup_nil
  listed := by simp

instance : Inhabited Scope := ⟨.empty none⟩

structure Function where
  name : Option String
  params : List String
  body : List Node
  closure : Handle
  deriving Inhabited

def Function.displayName (f : Function) : String := f.name.getD "<anonymous>"

/-- An imported module as a value: its exports in the order of their declaration. -/
structure Exports where
  name : String
  entries : List (String × Value)
  deriving Inhabited

def Exports.get? (m : Exports) (name : String) : Option Value :=
  (m.entries.find? fun entry => entry.1 == name).map Prod.snd

/-- The entries of a dictionary, in the order of their insertion. -/
abbrev Entries := Array (Value × Value)

def Entries.find? (entries : Entries) (accepts : Value → Bool) : Option Value :=
  (Array.find? (fun entry => accepts entry.1) entries).map Prod.snd

structure Store where
  scopes : Array Scope := #[]
  lists : Array (Array Value) := #[]
  dictionaries : Array Entries := #[]
  functions : Array Function := #[]
  builtIns : Array BuiltIn := #[]
  modules : Array Exports := #[]
  deriving Inhabited

/-- An act on the store that may end in a fault. What it did before the fault stays done. -/
abbrev Act := EStateM Fault Store

namespace Act

def lift {α : Type} (result : Except Fault α) : Act α := fun s =>
  match result with
  | .ok a => .ok a s
  | .error fault => .error fault s

def read {α : Type} (view : Store → α) : Act α := fun s => .ok (view s) s

def readExcept {α : Type} (view : Store → Except Fault α) : Act α := fun s => lift (view s) s

end Act

namespace Store

def items (s : Store) (h : Handle) : Array Value := s.lists[h]?.getD #[]

def entries (s : Store) (h : Handle) : Entries := s.dictionaries[h]?.getD #[]

/-- Change the scope of a handle. The store is taken apart first, here and below, so that a table
is changed in place. -/
def setScope (s : Store) (h : Handle) (update : Scope → Scope) : Store :=
  match s with
  | ⟨scopes, lists, dictionaries, functions, builtIns, modules⟩ =>
    ⟨scopes.modify h update, lists, dictionaries, functions, builtIns, modules⟩

def setItems (s : Store) (h : Handle) (update : Array Value → Array Value) : Store :=
  match s with
  | ⟨scopes, lists, dictionaries, functions, builtIns, modules⟩ =>
    ⟨scopes, lists.modify h update, dictionaries, functions, builtIns, modules⟩

def setEntries (s : Store) (h : Handle) (update : Entries → Entries) : Store :=
  match s with
  | ⟨scopes, lists, dictionaries, functions, builtIns, modules⟩ =>
    ⟨scopes, lists, dictionaries.modify h update, functions, builtIns, modules⟩

def addList (s : Store) (items : Array Value) : Value × Store :=
  (.list s.lists.size, { s with lists := s.lists.push items })

def addDictionary (s : Store) (entries : Entries) : Value × Store :=
  (.dictionary s.dictionaries.size, { s with dictionaries := s.dictionaries.push entries })

def addFunction (s : Store) (f : Function) : Value × Store :=
  (.function s.functions.size, { s with functions := s.functions.push f })

def addBuiltIn (s : Store) (b : BuiltIn) : Value × Store :=
  (.builtIn s.builtIns.size, { s with builtIns := s.builtIns.push b })

def addModule (s : Store) (m : Exports) : Value × Store :=
  (.module s.modules.size, { s with modules := s.modules.push m })

/-- How many containers there are. A value that does not contain itself nests no deeper. -/
def depth (s : Store) : Nat := s.lists.size + s.dictionaries.size

end Store

end BasicScript
