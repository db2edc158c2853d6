import BasicScript.Evaluate.Call
import BasicScript.Evaluate.Import

/-! The evaluator, and running programs. `step` says what a node means in terms of an evaluator for
its parts; `evaluate` unfolds it as often as its fuel allows. Fuel bounds how deep evaluation nests
and how many turns a loop takes, and running out of it is no result. -/

set_option autoImplicit false

namespace BasicScript

/-- What a node means, when `evaluate` says what its parts, the functions it calls and the modules
it imports mean. -/
def Evaluator.step (host : Host) (fuel : Nat) (evaluate : Evaluator) : Evaluator
  | .number value _, _ => return .number value
  | .string value _, _ => return .string value
  | .binary left operator right span, frame => evaluate.binary frame left operator right span
  | .unary operator operand span, frame => evaluate.unary frame operator operand span
  | .access name span, frame => access frame name span
  | .declare name constant value span, frame => evaluate.declare frame name constant value span
  | .assign name compound value span, frame => evaluate.assign frame name compound value span
  | .list items _, frame => evaluate.list frame items
  | .dictionary entries _, frame => evaluate.dictionary frame entries
  | .getIndex base index span, frame => evaluate.getIndex frame base index span
  | .setIndex base index value span, frame => evaluate.setIndex frame base index value span
  | .member base name span, frame => evaluate.member frame base name span
  | .function name params body span, frame => Evaluator.function frame name params body span
  | .call callee args span, frame => evaluate.call frame host.config.maxCallDepth callee args span
  | .ifElse branches otherwise _, frame => evaluate.ifElse frame branches otherwise
  | .whileLoop condition body _, frame => evaluate.whileLoop frame condition body fuel
  | .forLoop item itemSpan iterable body _, frame =>
    evaluate.forLoop frame fuel item itemSpan iterable body
  | .exitFunction value span, frame => evaluate.exitFunction frame value span
  | .exitLoop span, frame => Evaluator.exitLoop frame span
  | .nextTurn span, frame => Evaluator.nextTurn frame span
  | .importModule name binding span, frame => evaluate.importModule frame host name binding span
  | .range start stop step span, frame => evaluate.range frame start stop step span

def evaluate (host : Host) : Nat → Node → Frame → Eval Value
  | 0, _, _ => throw .exhausted
  | fuel + 1, node, frame => Evaluator.step host fuel (evaluate host fuel) node frame

namespace Eval

def newContext (name : String) : Eval Context :=
  return ⟨[name], ← newRoot [] (.synthetic "<builtins>")⟩

def interpret (host : Host) (fuel : Nat) (nodes : List Node) (context : Context) :
    Eval (List Value) :=
  Evaluator.statements (evaluate host fuel) (.root context) nodes

def runText (host : Host) (fuel : Nat) (name text : String) : Eval (List Value) := do
  let nodes ← parse name text
  interpret host fuel nodes (← newContext name)

/-- Run the statements of the file at `path` in a context of its own. Imports resolve relative to
the file, and importing it back is circular. -/
def runFile (host : Host) (fuel : Nat) (path : Path) (nodes : List Node) : Eval (List Value) := do
  let context ← newContext path.text
  within (host.files.canonical path) (interpret host fuel nodes context)

end Eval

def ampleFuel : Nat := 1 <<< 60

end BasicScript
