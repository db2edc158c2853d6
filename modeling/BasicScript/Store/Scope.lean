import BasicScript.Store

/-! Scopes. Looking up and assigning act on the nearest scope up the chain that has the name;
declaring acts on the scope itself and refuses a name that it already has. A scope is made after its
parent, so walking up the chain ends. -/

set_option autoImplicit false

namespace BasicScript

def Variable.named (v : Variable) (name : String) : Slot := ⟨name, v.value, v.constant, v.builtIn⟩

def Slot.variable (slot : Slot) : Variable := ⟨slot.value, slot.constant, slot.builtIn⟩

namespace Scope

def declares (scope : Scope) (name : String) : Bool := scope.table.contains name

def slot? (scope : Scope) (name : String) : Option Slot :=
  (scope.table[name]?).map fun found => found.named name

def slots (scope : Scope) : List Slot := scope.order.filterMap scope.slot?

/-- Put a slot under its name, behind the others if the name is new. -/
def insert (scope : Scope) (slot : Slot) : Scope where
  parent := scope.parent
  table := scope.table.insert slot.name slot.variable
  order := if scope.declares slot.name then scope.order else scope.order ++ [slot.name]
  distinct := by
    split
    · exact scope.distinct
    · refine List.nodup_append.mpr ⟨scope.distinct, by simp, fun name found other last => ?_⟩
      rintro rfl
      rw [List.mem_singleton] at last
      exact ‹¬_› ((scope.listed _).mp (last ▸ found))
  listed name := by
    rw [Std.TreeMap.mem_insert, Std.compare_eq_iff_eq, ← scope.listed]
    split
    · refine (or_iff_right_of_imp ?_).symm
      rintro rfl
      exact (scope.listed _).mpr ‹_›
    · rw [List.mem_append, List.mem_singleton, or_comm, eq_comm]

def put (scope : Scope) (name : String) (value : Value) : Scope :=
  { scope with
    table := scope.table.modify name fun found => { found with value }
    listed := fun other => by rw [scope.listed, Std.TreeMap.mem_modify] }

def exports (scope : Scope) : List Slot := scope.slots.filter (!·.builtIn)

end Scope

namespace Store

def addScope (s : Store) (parent : Option Handle) : Handle × Store :=
  (s.scopes.size, { s with scopes := s.scopes.push (.empty parent) })

def scope (s : Store) (h : Handle) : Scope := s.scopes[h]?.getD (.empty none)

def declares (s : Store) (h : Handle) (name : String) : Bool := (s.scope h).declares name

/-- The nearest scope from `h` upward that has the name. -/
def owner? (s : Store) (h : Handle) (name : String) : Option Handle :=
  if s.declares h name then some h
  else
    match (s.scope h).parent with
    | none => none
    | some parent => if parent < h then s.owner? parent name else none
termination_by h

def resolve (s : Store) (start : Option Handle) (name : String) : Option Handle :=
  start.bind (s.owner? · name)

def ownerAbove? (s : Store) (h : Handle) (name : String) : Option Handle :=
  match (s.scope h).parent with
  | none => none
  | some parent => if parent < h then s.owner? parent name else none

def slot? (s : Store) (h : Handle) (name : String) : Option Slot :=
  match (s.scope h).slot? name with
  | some slot => some slot
  | none => do (s.scope (← s.ownerAbove? h name)).slot? name

def lookup (s : Store) (h : Handle) (name : String) : Except Fault Value :=
  match s.slot? h name with
  | some slot => .ok slot.value
  | none => .error (.undefinedVariable name)

/-- Append a slot to a scope that does not have its name yet. -/
def declareSlot (h : Handle) (slot : Slot) : Act Unit := fun s =>
  if s.declares h slot.name then .error (.duplicateDeclaration slot.name) s
  else .ok () (s.setScope h (·.insert slot))

def declare (h : Handle) (name : String) (value : Value) (constant : Bool) : Act Unit :=
  declareSlot h ⟨name, value, constant, false⟩

/-- Declare a name of the interpreter; it is constant and not exported. -/
def declareBuiltIn (h : Handle) (name : String) (value : Value) : Act Unit :=
  declareSlot h ⟨name, value, true, true⟩

def assignIn (owner : Handle) (name : String) (value : Value) : Act Unit := fun s =>
  if ((s.scope owner).slot? name).any (·.constant) then .error (.constantAssignment name) s
  else .ok () (s.setScope owner (·.put name value))

def assign (h : Handle) (name : String) (value : Value) : Act Unit := fun s =>
  if s.declares h name then assignIn h name value s
  else
    match s.ownerAbove? h name with
    | none => .error (.undefinedVariable name) s
    | some owner => assignIn owner name value s

def exports (s : Store) (h : Handle) : List Slot := (s.scope h).exports

end Store

end BasicScript
