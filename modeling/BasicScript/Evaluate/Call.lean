import BasicScript.Evaluate.Loop

/-! Calling values. A function of a script runs in a new scope below the one it was defined in, and
the scope of the call plays no part. -/

set_option autoImplicit false

namespace BasicScript.Evaluator

variable (evaluate : Evaluator) (frame : Frame)

def bindParameters (scope : Handle) (span : Span) : List (String × Value) → Eval Unit
  | [] => return ()
  | (name, value) :: rest => do
    Eval.ofAct frame span (Store.declare scope name value false)
    bindParameters scope span rest

/-- Run a function's body; its value is what it is left with, or null. -/
def bodyValue (frame : Frame) (body : List Node) : Eval Value := do
  try
    block evaluate frame body
    return .null
  catch
    | .exitFunction value => return value
    | stop => throw stop

def callFunction (maxDepth : Nat) (f : Function) (args : List Value) (span : Span) :
    Eval Value := do
  let name := f.displayName
  if args.length ≠ f.params.length then
    Eval.fail frame (.argumentCount name (toString f.params.length) args.length) span
  -- arguments are counted before calls are
  if maxDepth ≤ (← get).callDepth then
    Eval.fail frame (.recursionLimit maxDepth name) span
  let scope ← Eval.change (·.addScope (some f.closure))
  -- what fails here fails in the caller
  bindParameters frame scope span (f.params.zip args)
  Eval.nested (bodyValue evaluate (frame.enter (name ++ "()") scope true) f.body)

def callBuiltIn (b : BuiltIn) (args : List Value) (span : Span) : Eval Value :=
  -- a built-in is named in the trace, but does not count as a call
  let trace := (b.name ++ "()") :: frame.trace
  Eval.ofEffect trace span (b.call args trace frame.scope)

def callValue (maxDepth : Nat) (callee : Value) (args : List Value) (span : Span) :
    Eval Value := do
  match callee with
  | .function h =>
    let f ← Eval.read fun s => s.functions[h]?.getD default
    callFunction evaluate frame maxDepth f args span
  | .builtIn h =>
    let b ← Eval.read fun s => s.builtIns[h]?.getD default
    callBuiltIn frame b args span
  | _ => Eval.fail frame (.notCallable callee.type) span

def call (maxDepth : Nat) (callee : Node) (args : List Node) (span : Span) : Eval Value := do
  let callee ← evaluate callee frame
  let args ← values evaluate frame args #[]
  callValue evaluate frame maxDepth callee args.toList span

end BasicScript.Evaluator
