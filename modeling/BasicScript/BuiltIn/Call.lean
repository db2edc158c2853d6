import BasicScript.BuiltIn.Attribute
import BasicScript.Console
import BasicScript.Store.Scope

/-! Calling built-in functions. A call may change the store and the console, and what it did before
a fault stays done. -/

set_option autoImplicit false

namespace BasicScript

structure World where
  store : Store := {}
  console : Console := {}
  deriving Inhabited

abbrev Effect := EStateM Fault World

namespace Effect

def ofAct {α : Type} (act : Act α) : Effect α := fun ⟨store, console⟩ =>
  match act store with
  | .ok a store => .ok a ⟨store, console⟩
  | .error fault store => .error fault ⟨store, console⟩

def read {α : Type} (view : Store → α) : Effect α := ofAct (Act.read view)

def lift {α : Type} (result : Except Fault α) : Effect α := ofAct (Act.lift result)

def alloc (add : Store → Value × Store) : Effect Value := ofAct (modifyGet add)

/-- Write a text as a whole or not at all. -/
def write (text : String) : Effect Unit := fun ⟨store, console⟩ =>
  if console.fits text then .ok () ⟨store, console.append text⟩
  else .error (.outputFailed "sink is full") ⟨store, console⟩

/-- Write a text and then, separately, a line break. -/
def writeLine (text : String) : Effect Unit := do
  write text
  write "\n"

def readLine : Effect String := fun ⟨store, console⟩ =>
  match console.readLine? with
  | some (line, console) => .ok line ⟨store, console⟩
  | none => .error .inputPending ⟨store, console⟩

end Effect

namespace BuiltIn

open Effect

def clearSequence : String := "\x1b[2J\x1b[1;1H"

def joined (args : List Value) : Effect String := do
  return ", ".intercalate (← read fun s => args.map s.text)

def numbers (function : String) : List Value → Except Fault (List Number)
  | [] => .ok []
  | .number n :: rest => (n :: ·) <$> numbers function rest
  | v :: _ => .error (.notNumber function v.type)

def offset : Value → Except Fault Int64
  | .number (.int n) => .ok n
  | .number (.float _) => .error (.wrongType "whole Number" "fractional Number")
  | v => .error (.wrongType ValueType.number.name v.type.name)

def getFromLast (s : Store) (receiver index : Value) : Except Fault Value := do
  let length := (s.length? receiver).getD 0
  let n ← offset index
  match Number.ofInt? (length - 1 - n.toInt) with
  | some position =>
    if 0 ≤ position then s.getItem receiver (.ofInt64 position)
    else .error (.offsetOutOfRange n length)
  | none => .error (.offsetOutOfRange n length)

def pop (list : Handle) : Act Value := do
  match ← Act.read fun s => (s.items list).back? with
  | some last =>
    modify (·.setItems list Array.pop)
    return last
  | none => throw .emptyPop

def math : MathFunction → List Number → Except Fault Number
  | .sqrt, n :: _ => n.sqrt
  | .abs, n :: _ => .ok n.abs
  | .floor, n :: _ => .ok n.floor
  | .ceil, n :: _ => .ok n.ceil
  | .round, n :: _ => .ok n.round
  | .min, n :: rest => .ok (rest.foldl Number.min n)
  | .max, n :: rest => .ok (rest.foldl Number.max n)
  | _, [] => .ok (.int 0)

def terminal (function : TerminalFunction) (args : List Value) : Effect Value := do
  match function with
  | .print =>
    write (← joined args)
    return .null
  | .printLine =>
    writeLine (← joined args)
    return .null
  | .input =>
    match args with
    | [] => pure ()
    | prompt :: _ => write (← read (·.text prompt))
    return .string (withoutBreaks (← readLine))
  | .clear =>
    write clearSequence
    return .null

/-- Do what a built-in named `name` does, for arguments that its arity accepts. The call comes from
the scope `scope`, and `trace` names the active calls, this one first. -/
def perform (name : String) (action : Action) (args : List Value) (trace : List String)
    (scope : Handle) : Effect Value := do
  let argument := args.headD .null
  match action with
  | .print =>
    writeLine (← joined args)
    return .null
  | .text => return .string (← read (·.text argument))
  | .number => .number <$> lift argument.toNumber
  | .length =>
    match ← read (·.length? argument) with
    | some n => return .ofNat n
    | none => throw (.wrongType "String, List or Dictionary" argument.type.name)
  | .typeName => return .string argument.type.name
  | .half n => .number <$> lift (n.div (.int 2))
  | .double n => return .number (n.mul (.int 2))
  | .floor n => return .number n.floor
  | .ceil n => return .number n.ceil
  | .sqrt n => .number <$> lift n.sqrt
  | .get receiver => ofAct (Act.readExcept (·.getItem receiver argument))
  | .getFromLast receiver => ofAct (Act.readExcept (getFromLast · receiver argument))
  | .size receiver => return .ofNat (← read fun s => (s.length? receiver).getD 0)
  | .append list =>
    ofAct (modify (·.setItems list (·.push argument)))
    return .null
  | .pop list => ofAct (pop list)
  | .keys dictionary => alloc fun s => s.addList ((s.entries dictionary).map Prod.fst)
  | .values dictionary => alloc fun s => s.addList ((s.entries dictionary).map Prod.snd)
  | .math function => .number <$> lift (numbers name args >>= math function)
  | .terminal function => terminal function args
  | .host function =>
    ofAct (Act.readExcept fun s => function ⟨args, args.map s.text, trace, s.lookup scope⟩)

def call (b : BuiltIn) (args : List Value) (trace : List String) (scope : Handle) :
    Effect Value := do
  match b.arity with
  | some arity => lift (arity.check b.name args.length)
  | none => pure ()
  perform b.name b.action args trace scope

def globals : List BuiltIn :=
  [⟨"print", none, .print⟩, ⟨"string", some (.exactly 1), .text⟩,
   ⟨"number", some (.exactly 1), .number⟩, ⟨"len", some (.exactly 1), .length⟩,
   ⟨"type", some (.exactly 1), .typeName⟩]

def constants : List (String × Value) :=
  [("TRUE", .boolean true), ("FALSE", .boolean false), ("NULL", .null),
   ("true", .boolean true), ("false", .boolean false), ("null", .null)]

/-- Declare all constants and functions in a scope, up to the first name it already has. -/
def install (scope : Handle) : Effect Unit := do
  for (name, value) in constants do
    ofAct (Store.declareBuiltIn scope name value)
  for b in globals do
    let value ← alloc (·.addBuiltIn b)
    ofAct (Store.declareBuiltIn scope b.name value)

end BuiltIn

end BasicScript
