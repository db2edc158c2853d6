import BasicScript.Session

/-! Evaluating expressions and declarations. Each rule takes the evaluator of its parts as an
argument, so a statement about a rule is one about every evaluator. -/

set_option autoImplicit false

namespace BasicScript

abbrev Evaluator := Node → Frame → Eval Value

namespace Evaluator

variable (evaluate : Evaluator) (frame : Frame)

def values : List Node → Array Value → Eval (Array Value)
  | [], found => return found
  | node :: rest, found => do
    let value ← evaluate node frame
    values rest (found.push value)

def condition (node : Node) : Eval Bool := do
  let value ← evaluate node frame
  Eval.ofAct frame node.span (Act.readExcept (·.truth value))

def binary (left : Node) (operator : BinaryOperator) (right : Node) (span : Span) :
    Eval Value := do
  let a ← evaluate left frame
  let b ← evaluate right frame
  Eval.ofAct frame span (Store.binary operator a b)

def unary (operator : UnaryOperator) (operand : Node) (span : Span) : Eval Value := do
  let value ← evaluate operand frame
  Eval.ofAct frame span (Act.readExcept (·.unary operator value))

def access (name : String) (span : Span) : Eval Value :=
  Eval.ofAct frame span (Act.readExcept (·.lookup frame.scope name))

def declare (name : String) (constant : Bool) (value : Node) (span : Span) : Eval Value := do
  let value ← evaluate value frame
  Eval.ofAct frame span (Store.declare frame.scope name value constant)
  return value

def assign (name : String) (compound : Option BinaryOperator) (value : Node) (span : Span) :
    Eval Value := do
  let value ← evaluate value frame
  let value ← match compound with
    | none => pure value
    | some operator => do
      -- only now, since finding the value may have changed the variable
      let current ← access frame name span
      Eval.ofAct frame span (Store.binary operator current value)
  Eval.ofAct frame span (Store.assign frame.scope name value)
  return value

def list (items : List Node) : Eval Value := do
  let items ← values evaluate frame items #[]
  Eval.change (·.addList items)

def entries : List (Node × Node) → Entries → Eval Entries
  | [], found => return found
  | (key, value) :: rest, found => do
    let key ← evaluate key frame
    let value ← evaluate value frame
    -- compared with the other keys as they are by now
    let found ← Eval.read fun s => s.insert found key value
    entries rest found

def dictionary (nodes : List (Node × Node)) : Eval Value := do
  let entries ← entries evaluate frame nodes #[]
  Eval.change (·.addDictionary entries)

def getIndex (base index : Node) (span : Span) : Eval Value := do
  let base ← evaluate base frame
  let index ← evaluate index frame
  Eval.ofAct frame span (Act.readExcept (·.getItem base index))

def setIndex (base index value : Node) (span : Span) : Eval Value := do
  let base ← evaluate base frame
  let index ← evaluate index frame
  let value ← evaluate value frame
  Eval.ofAct frame span (Store.setItem base index value)
  return value

def member (base : Node) (name : String) (span : Span) : Eval Value := do
  let base ← evaluate base frame
  Eval.ofAct frame span (Store.attribute base name)

/-- A function without a name is the value; one with a name is declared as a constant. -/
def function (name : Option String) (params : List String) (body : List Node) (span : Span) :
    Eval Value := do
  let value ← Eval.change (·.addFunction ⟨name, params, body, frame.scope⟩)
  match name with
  | none => return value
  | some name =>
    Eval.ofAct frame span (Store.declare frame.scope name value true)
    return .null

end Evaluator

end BasicScript
