import BasicScript.Number

/-! Runtime values. Numbers, strings, booleans and null are the value itself; everything shared or
compared by identity is a handle, the index of its contents in the matching table of a store. -/

set_option autoImplicit false

namespace BasicScript

abbrev Handle := Nat

inductive Value where
  | number (n : Number)
  | string (s : String)
  | boolean (b : Bool)
  | null
  | list (h : Handle)
  | dictionary (h : Handle)
  | function (h : Handle)
  | builtIn (h : Handle)
  | module (h : Handle)
  deriving DecidableEq, Inhabited

inductive ValueType where
  | number | string | boolean | null | list | dictionary | function | builtIn | module
  deriving DecidableEq, Inhabited

def ValueType.name : ValueType → String
  | .number => "Number"
  | .string => "String"
  | .boolean => "Boolean"
  | .null => "Null"
  | .list => "List"
  | .dictionary => "Dictionary"
  | .function => "Function"
  | .builtIn => "BuiltInFunction"
  | .module => "Module"

namespace Value

def type : Value → ValueType
  | .number _ => .number
  | .string _ => .string
  | .boolean _ => .boolean
  | .null => .null
  | .list _ => .list
  | .dictionary _ => .dictionary
  | .function _ => .function
  | .builtIn _ => .builtIn
  | .module _ => .module

def ofInt64 (n : Int64) : Value := .number (.int n)

def ofNat (n : Nat) : Value := .number (.int (Int64.ofNat n))

/-- The number that arithmetic sees; booleans count as zero and one. -/
def numeric? : Value → Option Number
  | .number n => some n
  | .boolean b => some (.int (if b then 1 else 0))
  | _ => none

end Value

end BasicScript
