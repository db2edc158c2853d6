import BasicScript.Number.Arithmetic

/-! Functions that the interpreter brings along: what they are called, how many arguments they take
and what they do. A method is such a function that holds its receiver. -/

set_option autoImplicit false

namespace BasicScript

structure Arity where
  min : Nat
  max : Nat
  deriving DecidableEq, Inhabited

namespace Arity

/-- The greatest count that 64 bits hold. No call has more arguments, so it is no bound at all. -/
def unbounded : Nat := UInt64.size - 1

def exactly (n : Nat) : Arity := ⟨n, n⟩

def atLeast (n : Nat) : Arity := ⟨n, unbounded⟩

def accepts (a : Arity) (count : Nat) : Bool := a.min ≤ count && count ≤ a.max

def text (a : Arity) : String :=
  if a.min = a.max then toString a.min
  else if a.max = unbounded then "at least " ++ toString a.min
  else toString a.min ++ " to " ++ toString a.max

def check (a : Arity) (function : String) (count : Nat) : Except Fault Unit :=
  if a.accepts count then .ok () else .error (.argumentCount function a.text count)

end Arity

/-- What a function of the host sees of its call. It cannot reach into lists or dictionaries. -/
structure HostCall where
  args : List Value
  texts : List String
  /-- The names of the active calls, the function's own first. -/
  trace : List String
  lookup : String → Except Fault Value

abbrev HostFunction := HostCall → Except Fault Value

inductive MathFunction where
  | sqrt | abs | floor | ceil | round | min | max
  deriving DecidableEq, Inhabited

inductive TerminalFunction where
  | print | printLine | input | clear
  deriving DecidableEq, Inhabited

inductive Action where
  -- functions of every scope
  | print | text | number | length | typeName
  -- methods of numbers
  | half (n : Number) | double (n : Number) | floor (n : Number) | ceil (n : Number)
  | sqrt (n : Number)
  -- methods of strings, lists and dictionaries
  | get (receiver : Value) | getFromLast (receiver : Value) | size (receiver : Value)
  | append (list : Handle) | pop (list : Handle)
  | keys (dictionary : Handle) | values (dictionary : Handle)
  -- functions of native modules
  | math (function : MathFunction)
  | terminal (function : TerminalFunction)
  | host (function : HostFunction)
  deriving Inhabited

structure BuiltIn where
  name : String
  /-- When absent, any number of arguments is accepted. -/
  arity : Option Arity
  action : Action
  deriving Inhabited

end BasicScript
