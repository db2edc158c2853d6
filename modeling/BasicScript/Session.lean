import BasicScript.Diagnostic
import BasicScript.Module.Resolve

/-! What evaluation acts on and how it may end. A session is the world together with the files and
calls that are active; a frame says where a node is evaluated; an interrupt is everything that ends
an evaluation without a value. -/

set_option autoImplicit false

namespace BasicScript

structure Session where
  world : World := {}
  /-- The files whose statements are running, innermost first. -/
  importStack : List Path := []
  /-- How many calls of script functions are active. -/
  callDepth : Nat := 0
  deriving Inhabited

/-- A scope together with the names of the active calls, innermost first. -/
structure Context where
  trace : List String
  scope : Handle
  deriving DecidableEq, Inhabited

structure Frame extends Context where
  inFunction : Bool
  inLoop : Bool
  deriving DecidableEq, Inhabited

namespace Frame

def root (context : Context) : Frame := { context with inFunction := false, inLoop := false }

def enter (frame : Frame) (name : String) (scope : Handle) (inFunction : Bool) : Frame :=
  ⟨⟨name :: frame.trace, scope⟩, inFunction, false⟩

def iteration (frame : Frame) (scope : Handle) : Frame := { frame with scope, inLoop := true }

end Frame

inductive Interrupt where
  | failed (d : Diagnostic)
  | exitFunction (value : Value)
  | exitLoop (span : Span)
  | nextTurn (span : Span)
  /-- The evaluation was cut off; it has no result at this much fuel. -/
  | exhausted
  deriving Inhabited

def Interrupt.isPending : Interrupt → Bool
  | .failed d => d.fault = .inputPending
  | _ => false

abbrev Eval := EStateM Interrupt Session

namespace Eval

def fail {α : Type} (frame : Frame) (fault : Fault) (span : Span) : Eval α :=
  throw (.failed ⟨fault, span, frame.trace, []⟩)

def ofEffect {α : Type} (trace : List String) (span : Span) (effect : Effect α) : Eval α :=
  fun ⟨world, importStack, callDepth⟩ =>
    match effect world with
    | .ok a world => .ok a ⟨world, importStack, callDepth⟩
    | .error fault world =>
      .error (.failed ⟨fault, span, trace, []⟩) ⟨world, importStack, callDepth⟩

def ofAct {α : Type} (frame : Frame) (span : Span) (act : Act α) : Eval α :=
  ofEffect frame.trace span (.ofAct act)

def read {α : Type} (view : Store → α) : Eval α := fun s => .ok (view s.world.store) s

def change {α : Type} (update : Store → α × Store) : Eval α :=
  fun ⟨⟨store, console⟩, importStack, callDepth⟩ =>
    let (a, store) := update store
    .ok a ⟨⟨store, console⟩, importStack, callDepth⟩

/-- Count a call for as long as `body` runs, however it ends. -/
def nested {α : Type} (body : Eval α) : Eval α := fun ⟨world, importStack, callDepth⟩ =>
  match body ⟨world, importStack, callDepth + 1⟩ with
  | .ok a ⟨world, importStack, callDepth⟩ => .ok a ⟨world, importStack, callDepth - 1⟩
  | .error stop ⟨world, importStack, callDepth⟩ => .error stop ⟨world, importStack, callDepth - 1⟩

/-- Count `path` as running for as long as `body` runs, however it ends. -/
def within {α : Type} (path : Path) (body : Eval α) : Eval α :=
  fun ⟨world, importStack, callDepth⟩ =>
    match body ⟨world, path :: importStack, callDepth⟩ with
    | .ok a ⟨world, importStack, callDepth⟩ => .ok a ⟨world, importStack.tail, callDepth⟩
    | .error stop ⟨world, importStack, callDepth⟩ =>
      .error stop ⟨world, importStack.tail, callDepth⟩

end Eval

end BasicScript
