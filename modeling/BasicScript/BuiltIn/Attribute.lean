import BasicScript.Store.Operation

/-! Attributes: the methods of numbers, strings, lists and dictionaries, and the exports of modules.
-/

set_option autoImplicit false

namespace BasicScript

namespace BuiltIn

def method (name : String) (arity : Nat) (action : Action) : BuiltIn :=
  ⟨name, some (.exactly arity), action⟩

def numberMethod? (n : Number) : String → Option BuiltIn
  | "half" => some (method "half" 0 (.half n))
  | "double" => some (method "double" 0 (.double n))
  | "floor" => some (method "floor" 0 (.floor n))
  | "ceil" => some (method "ceil" 0 (.ceil n))
  | "sqrt" => some (method "sqrt" 0 (.sqrt n))
  | _ => none

def sequenceMethod? (receiver : Value) : String → Option BuiltIn
  | "get" => some (method "get" 1 (.get receiver))
  | "getFromLast" => some (method "getFromLast" 1 (.getFromLast receiver))
  | "length" => some (method "length" 0 (.size receiver))
  | _ => none

def listMethod? (list : Handle) : String → Option BuiltIn
  | "append" => some (method "append" 1 (.append list))
  | "pop" => some (method "pop" 0 (.pop list))
  | name => sequenceMethod? (.list list) name

def dictionaryMethod? (dictionary : Handle) : String → Option BuiltIn
  | "keys" => some (method "keys" 0 (.keys dictionary))
  | "values" => some (method "values" 0 (.values dictionary))
  | "length" => some (method "length" 0 (.size (.dictionary dictionary)))
  | _ => none

def method? (receiver : Value) (name : String) : Option BuiltIn :=
  match receiver with
  | .number n => numberMethod? n name
  | .string _ => sequenceMethod? receiver name
  | .list h => listMethod? h name
  | .dictionary h => dictionaryMethod? h name
  | _ => none

end BuiltIn

/-- The value of `receiver.name`. A method is made anew each time it is asked for. -/
def Store.attribute (receiver : Value) (name : String) : Act Value := do
  match receiver with
  | .module h =>
    match ← Act.read fun s => (s.modules[h]?.getD default).get? name with
    | some value => return value
    | none => throw (.noAttribute receiver.type name)
  | _ =>
    match BuiltIn.method? receiver name with
    | some method => modifyGet (·.addBuiltIn method)
    | none => throw (.noAttribute receiver.type name)

end BasicScript
