import BasicScript.Proofs.Evaluate.Run
import BasicScript.Proofs.Node.Fault
import BasicScript.Proofs.Store.Hostless

/-! Traces and notes. A trace is attached where a fault arises, a note where it leaves an import.
That both name the calls and imports that are active at the fault is shown beside a marked
evaluator, which puts a mark on a fault where it leaves a call or an import, and looks at no trace.
-/

set_option autoImplicit false

namespace BasicScript

/-- What is active between the frame of an evaluation and a fault in it. -/
inductive Activation where
  | call (name : String)
  | module (name : String)

namespace Activation

def entry : Activation → String
  | .call name => name ++ "()"
  | .module name => moduleEntry name

def note? : Activation → Option String
  | .call _ => none
  | .module name => some (importNote name)

/-- The mark that a fault of the marked evaluator gets where it leaves this. -/
def mark : Activation → String
  | .call name => name ++ "()"
  | .module name => importNote name

end Activation

namespace Evaluator

end Evaluator

def Host.FaultyModule (host : Host) (name : String) (d : Diagnostic) : Prop :=
  ∃ directory path text, host.resolve? directory name = some (.file path) ∧
    host.files.read path = .ok text ∧ Node.ofText path.text text = .error ⟨d.fault, d.span, [], []⟩

/-- The diagnostic names what is `active`, innermost first, below a frame with this trace: a fault
of the running program in its trace and its notes, a fault of a text in its notes, of which the
first is about that text. -/
structure Diagnostic.Names (host : Host) (trace : List String) (d : Diagnostic)
    (active : List Activation) : Prop where
  notes : d.notes = active.filterMap Activation.note?
  running : d.fault.IsRuntime → d.trace = active.map Activation.entry ++ trace
  ofText : ¬d.fault.IsRuntime → d.trace = [] ∧
    ∃ name outer, active = .module name :: outer ∧ host.FaultyModule name d

namespace Diagnostic.Names

variable {host : Host} {trace : List String} {d : Diagnostic} {active : List Activation}

theorem here {fault : Fault} {span : Span} (raised : fault.IsRuntime) :
    Names host trace ⟨fault, span, trace, []⟩ [] where
  notes := rfl
  running _ := rfl
  ofText other := absurd raised other

/-- Outside of `a` the diagnostic names `a`, too, if it has got the note of `a`. -/
theorem leave (a : Activation) (names : Names host (a.entry :: trace) d active) :
    Names host trace { d with notes := d.notes ++ a.note?.toList } (active ++ [a]) where
  notes := by
    rw [List.filterMap_append, ← names.notes]
    cases a <;> rfl
  running raised := by
    rw [List.map_append, List.append_assoc]
    exact names.running raised
  ofText other := by
    obtain ⟨empty, name, outer, rfl, faulty⟩ := names.ofText other
    exact ⟨empty, name, outer ++ [a], rfl, faulty⟩

end Diagnostic.Names

namespace Interrupt

def isFault : Interrupt → Bool
  | .failed _ => true
  | .exitFunction _ | .exitLoop _ | .nextTurn _ | .exhausted => false

end Interrupt

/-- The interrupts of two runs of which the second is marked. A fault of the first names what the
marks of the second tell. -/
inductive Interrupt.Marked (host : Host) (trace : List String) : Interrupt → Interrupt → Prop
  | signal {x : Interrupt} (other : x.isFault = false) : Marked host trace x x
  | fault {d : Diagnostic} {active : List Activation} (names : d.Names host trace active) :
      Marked host trace (.failed d) (.failed { d with notes := active.map Activation.mark })

namespace Interrupt.Marked

variable {host : Host} {trace : List String} {x y : Interrupt}

theorem escaped {frame : Frame} (both : Marked host frame.trace x y) :
    Marked host frame.trace (x.escaped frame) (y.escaped frame) := by
  cases both with
  | signal other =>
    cases x with
    | failed _ => cases other
    | exhausted => exact .signal rfl
    | exitFunction _ | exitLoop _ | nextTurn _ => exact .fault (.here (by rfl))
  | fault names => exact .fault names

end Interrupt.Marked

namespace Eval

variable {α β : Type} {φ : Interrupt → Interrupt}

theorem mapInterrupt_bind (body : Eval α) (rest : α → Eval β) :
    mapInterrupt φ (body >>= rest) = mapInterrupt φ body >>= fun a => mapInterrupt φ (rest a) := by
  funext s
  simp only [mapInterrupt_eq, bind, EStateM.bind]
  cases body s with
  | ok _ _ => simp only [caught]
  | error _ _ => rfl

end Eval

namespace Evaluator

end Evaluator

namespace Coupling

variable {host : Host} {first second : Evaluator} {f : Frame} {τ : List String} {s : Session}

end Coupling

namespace Evaluator

end Evaluator

end BasicScript
