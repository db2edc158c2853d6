import BasicScript.Evaluate.Expression

/-! Evaluating blocks, conditionals, loops and ranges. The body of a loop runs in a new scope on
each turn; the body of a conditional runs in the scope around it. -/

set_option autoImplicit false

namespace BasicScript

namespace Range

/-- The integers from `current` on, `step` apart, behind those already listed. They end in front of
`stop`, or with one whose successor does not fit into 64 bits. -/
def fill (stop step current : Int64) (items : Array Value) : Array Value :=
  if 0 < step ∧ current < stop ∨ step < 0 ∧ stop < current then
    let items := items.push (.ofInt64 current)
    match _ : Number.ofInt? (current.toInt + step.toInt) with
    | some next => fill stop step next items
    | none => items
  else items
termination_by (if 0 < step then stop.toInt - current.toInt else current.toInt - stop.toInt).toNat
decreasing_by
  have next := Number.ofInt?_eq_some.mp ‹_›
  simp only [Int64.lt_iff_toInt_lt, Int64.toInt_zero] at *
  split <;> omega

end Range

namespace Evaluator

variable (evaluate : Evaluator) (frame : Frame)

def block : List Node → Eval Unit
  | [] => return ()
  | node :: rest => do
    let _ ← evaluate node frame
    block rest

def ifElse : List (Node × List Node) → Option (List Node) → Eval Value
  | [], otherwise => do
    block evaluate frame (otherwise.getD [])
    return .null
  | (test, body) :: rest, otherwise => do
    if ← condition evaluate frame test then
      block evaluate frame body
      return .null
    else ifElse rest otherwise

/-- One turn of a loop. Whether the loop goes on. -/
def turn (body : List Node) : Eval Bool := do
  let scope ← Eval.change (·.addScope (some frame.scope))
  try
    block evaluate (frame.iteration scope) body
    return true
  catch
    | .nextTurn _ => return true
    | .exitLoop _ => return false
    | stop => throw stop

def whileLoop (test : Node) (body : List Node) : Nat → Eval Value
  | 0 => throw .exhausted
  | fuel + 1 => do
    if ← condition evaluate frame test then
      if ← turn evaluate frame body then whileLoop test body fuel else return .null
    else return .null

def bindItem (item : String) (itemSpan : Span) : Eval Unit := do
  -- a variable of this very scope is used again, but none of a scope around it
  if ← Eval.read (·.declares frame.scope item) then
    Eval.ofAct frame itemSpan (Store.assign frame.scope item .null)
  else
    Eval.ofAct frame itemSpan (Store.declare frame.scope item .null false)

/-- The turns of a loop from the item `index` on. The list is looked at anew on each turn. -/
def forItems (item : String) (itemSpan : Span) (list : Handle) (body : List Node) :
    Nat → Nat → Eval Value
  | 0, _ => throw .exhausted
  | fuel + 1, index => do
    match ← Eval.read fun s => (s.items list)[index]? with
    | none => return .null
    | some value =>
      Eval.ofAct frame itemSpan (Store.assign frame.scope item value)
      if ← turn evaluate frame body then forItems item itemSpan list body fuel (index + 1)
      else return .null

def forLoop (fuel : Nat) (item : String) (itemSpan : Span) (iterable : Node)
    (body : List Node) : Eval Value := do
  match ← evaluate iterable frame with
  | .list list =>
    bindItem frame item itemSpan
    forItems evaluate frame item itemSpan list body fuel 0
  | _ => Eval.fail frame .notIterable iterable.span

def exitFunction (value : Option Node) (span : Span) : Eval Value := do
  -- refused before the value is evaluated
  if !frame.inFunction then Eval.fail frame .returnOutsideFunction span
  let value ← match value with
    | none => pure .null
    | some node => evaluate node frame
  throw (.exitFunction value)

def exitLoop (span : Span) : Eval Value :=
  if frame.inLoop then throw (.exitLoop span) else Eval.fail frame .breakOutsideLoop span

def nextTurn (span : Span) : Eval Value :=
  if frame.inLoop then throw (.nextTurn span) else Eval.fail frame .continueOutsideLoop span

def bound (node : Node) : Eval Int64 := do
  match ← evaluate node frame with
  | .number (.int n) => return n
  | .number (.float _) =>
    Eval.fail frame (.wrongType "whole Number" "fractional Number") node.span
  | v => Eval.fail frame (.wrongType "whole Number" v.type.name) node.span

def range (start stop step : Node) (span : Span) : Eval Value := do
  let start ← bound evaluate frame start
  let stop ← bound evaluate frame stop
  let step ← bound evaluate frame step
  if step = 0 then Eval.fail frame .zeroStep span
  Eval.change (·.addList (Range.fill stop step start #[]))

end Evaluator

end BasicScript
