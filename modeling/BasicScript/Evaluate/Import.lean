import BasicScript.Evaluate.Loop
import BasicScript.Node.Parser

/-! Importing modules. A file module is scanned, parsed and run in a scope of its own that sees
nothing of the importer; its exports are then bound as one module value or one by one. -/

set_option autoImplicit false

namespace BasicScript

namespace Interrupt

/-- What a list of statements ends in when one of them is interrupted. Leaving a function or loop
is a fault where there is none to leave. -/
def escaped (frame : Frame) : Interrupt → Interrupt
  | .exitFunction _ =>
    .failed ⟨.returnOutsideFunction, .synthetic "<return>", frame.trace, []⟩
  | .exitLoop span => .failed ⟨.breakOutsideLoop, span, frame.trace, []⟩
  | .nextTurn span => .failed ⟨.continueOutsideLoop, span, frame.trace, []⟩
  | stop => stop

def withNote (note : String) : Interrupt → Interrupt
  | .failed d => .failed (d.withNote note)
  | stop => stop

end Interrupt

namespace Eval

def newRoot (trace : List String) (span : Span) : Eval Handle := do
  let scope ← change (·.addScope none)
  ofEffect trace span (BuiltIn.install scope)
  return scope

def parse (name text : String) : Eval (List Node) :=
  match Node.ofText name text with
  | .ok nodes => return nodes
  | .error d => throw (.failed d)

def mapInterrupt {α : Type} (f : Interrupt → Interrupt) (body : Eval α) : Eval α :=
  tryCatch body fun stop => throw (f stop)

end Eval

namespace Evaluator

variable (evaluate : Evaluator) (frame : Frame)

def statements (nodes : List Node) : Eval (List Value) :=
  Eval.mapInterrupt (·.escaped frame) do
    return (← values evaluate frame nodes #[]).toList

def runModule (name : String) (path : Path) (canonical : Path) (text : String) (span : Span) :
    Eval (List Export) :=
  Eval.mapInterrupt (·.withNote ("while importing module '" ++ name ++ "'")) do
    -- a fault of the text gets the note, too
    let nodes ← Eval.parse path.text text
    let scope ← Eval.newRoot frame.trace span
    let inner := frame.enter ("<module " ++ name ++ ">") scope false
    let _ ← Eval.within canonical (statements evaluate inner nodes)
    Eval.read fun s => (s.exports scope).map fun slot => ⟨slot.name, slot.value, slot.constant⟩

/-- The exports of the file at `path`, which must not be running already. -/
def loadFile (host : Host) (name : String) (path : Path) (span : Span) : Eval (List Export) := do
  let canonical := host.files.canonical path
  let running := (← get).importStack
  -- a file that is running is not read again, even if it could not be
  if running.any (·.same canonical) then
    let importer := (running.head?.map Path.text).getD span.file.name
    Eval.fail frame (.circularImport canonical.text importer) span
  match host.files.read path with
  | .ok text => runModule evaluate frame name path canonical text span
  | .error reason => Eval.fail frame (.moduleUnreadable name path.text reason) span

/-- Declare exports one by one, each as constant as it was. -/
def bindExports (span : Span) : List Export → Eval Unit
  | [] => return ()
  | e :: rest => do
    Eval.ofAct frame span (Store.declare frame.scope e.name e.value e.constant)
    bindExports span rest

def bindModule (binding name : String) (exports : List Export) (span : Span) : Eval Unit := do
  -- the module is there before its name can turn out to be taken
  let value ← Eval.change (·.addModule ⟨name, exports.map fun e => (e.name, e.value)⟩)
  Eval.ofAct frame span (Store.declare frame.scope binding value true)

def scriptDirectory? : Eval (Option Path) := return (← get).importStack.head?.bind Path.parent?

def importModule (host : Host) (module : Node) (binding : Option ImportAlias) (span : Span) :
    Eval Value := do
  match ← evaluate module frame with
  | .string name =>
    let exports ← match host.resolve? (← scriptDirectory?) name with
      | some (.file path) => loadFile evaluate frame host name path span
      | some (.native native) => Eval.ofAct frame span native.exports
      | none =>
        let config := host.config
        Eval.fail frame (.moduleNotFound name config.extension config.modulesFolder) module.span
    match binding with
    | some .wildcard => bindExports frame span exports
    | some (.name chosen) => bindModule frame chosen name exports span
    | none => bindModule frame (defaultAlias name) name exports span
    return .null
  | v => Eval.fail frame (.wrongType ValueType.string.name v.type.name) module.span

end Evaluator

end BasicScript
