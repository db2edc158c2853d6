import BasicScript.Store.Equality

/-! Dictionaries: entries in the order of their first insertion, found by equality of keys. Writing
under an equal key replaces the value and keeps the old key. -/

set_option autoImplicit false

namespace BasicScript

/-- Write to the entry at `position`, or append one if there is none. -/
def Entries.put (entries : Entries) (position : Option Nat) (key value : Value) : Entries :=
  match position.filter (· < entries.size) with
  | some i => entries.modify i fun entry => (entry.1, value)
  | none => entries.push (key, value)

namespace Store

def position? (s : Store) (entries : Entries) (key : Value) : Option Nat :=
  entries.findIdx? fun entry => s.equal entry.1 key

def valueAt? (s : Store) (entries : Entries) (key : Value) : Option Value :=
  Entries.find? entries fun other => s.equal other key

def insert (s : Store) (entries : Entries) (key value : Value) : Entries :=
  Entries.put entries (s.position? entries key) key value

def collect (s : Store) (pairs : List (Value × Value)) : Entries :=
  pairs.foldl (fun entries pair => s.insert entries pair.1 pair.2) #[]

end Store

end BasicScript
