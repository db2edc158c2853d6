import BasicScript.Proofs.Evaluate.Signal
import BasicScript.Proofs.Node.Fault
import BasicScript.Proofs.Store.Hostless

/-! The place of a call. A function runs in the scope that it was defined in, so wherever it is
called, it does the same. Only the traces of its faults tell the places of two calls apart: behind
what is active in the call stands what was active around it. -/

set_option autoImplicit false

namespace BasicScript

/-- Interrupts of two runs that began below these traces. They are the same, except that a fault has
the trace of its own run behind what has become active since. -/
inductive Interrupt.Below (outer outer' : List String) : Interrupt → Interrupt → Prop
  | same (x : Interrupt) : Below outer outer' x x
  | fault (fault : Fault) (span : Span) (inner notes : List String) :
      Below outer outer' (.failed ⟨fault, span, inner ++ outer, notes⟩)
        (.failed ⟨fault, span, inner ++ outer', notes⟩)

theorem Interrupt.Below.withNote {outer outer' : List String} {x y : Interrupt} {note : String}
    (both : Below outer outer' x y) : Below outer outer' (x.withNote note) (y.withNote note) := by
  cases both with
  | same => exact .same _
  | fault fault span inner notes => exact .fault fault span inner (notes ++ [note])

def Coupling.below (host : Host) (outer outer' : List String) :
    Coupling .hostless host host.config.maxCallDepth where
  frames _ _ f τ := ∃ inner, f.trace = inner ++ outer ∧ τ = inner ++ outer'
  stops f _ x y := Interrupt.Below outer outer' x y ∧ x.PermittedIn f
  cut _ := False
  imports _ _ := True
  fail := by
    rintro _ _ f τ fault span ⟨inner, same, rfl⟩ _
    rw [same]
    exact ⟨.fault fault span inner [], trivial⟩
  text _ _ _ _ := ⟨.same _, trivial⟩
  exhausted _ := ⟨.same _, trivial⟩
  exitFunction _ inside := ⟨.same _, inside⟩
  exitLoop _ inside := ⟨.same _, inside⟩
  nextTurn _ inside := ⟨.same _, inside⟩
  alike both := by
    cases both.1 with
    | same => exact .inl rfl
    | fault => exact .inr ⟨_, _, rfl, rfl⟩
  turn _ := id
  turn_left {f τ scope x y} both stays := by
    refine ⟨both.1, ?_⟩
    cases x with
    | exitFunction _ | failed _ | exhausted => exact both.2
    | exitLoop _ | nextTurn _ => cases stays
  call name _ := fun ⟨inner, same, other⟩ _ =>
    ⟨name :: inner, congrArg (name :: ·) same, congrArg (name :: ·) other⟩
  module name _ := fun ⟨inner, same, other⟩ _ =>
    ⟨moduleEntry name :: inner, congrArg (moduleEntry name :: ·) same,
      congrArg (moduleEntry name :: ·) other⟩
  module_left {f g τ name scope x y} both _ := by
    obtain ⟨both, permitted⟩ := both
    -- no signal comes out of a module, and faults are as they were
    have other : x.isSignal = false := by
      cases x with
      | failed _ | exhausted => rfl
      | exitFunction _ | exitLoop _ | nextTurn _ => cases permitted
    have other' : y.isSignal = false := by
      cases both with
      | same => exact other
      | fault => rfl
    rw [x.escaped_eq _ other, y.escaped_eq _ other']
    refine ⟨both.withNote, ?_⟩
    cases x with
    | failed _ | exhausted => trivial
    | exitFunction _ | exitLoop _ | nextTurn _ => cases other
  resolved _ := trivial
  cut_signal := Coupling.uncut_signal
  cut_withNote := id
  limits := Coupling.uncut_limits host
  trace_eq := False.elim

instance (host : Host) (outer outer' : List String) : (Coupling.below host outer outer').Plain where
  failBuiltIn := by
    rintro _ _ f τ fault span name ⟨inner, same, rfl⟩ _
    rw [same]
    exact ⟨.fault fault span (name :: inner) [], trivial⟩
  call_left {f τ name scope x y} both caught := by
    refine ⟨both.1, ?_⟩
    cases x with
    | exitFunction v => exact absurd rfl (caught v)
    -- the body of a function is in no loop, even if its call is
    | exitLoop _ | nextTurn _ => cases both.2
    | failed _ | exhausted => trivial

namespace Evaluator

/-- A function does the same wherever it is called: in any scope, in or outside of functions and
loops, below any trace. Both calls have one value, or fail alike but for what the traces of their
frames add to that of the fault, or run out of fuel together; and they leave one session. -/
theorem callFunction_lexical (host : Host) (standard : host.natives = Registry.standard)
    (fuel : Nat) (s : Session) (hostless : s.world.store.Hostless) (f : Function)
    (args : List Value) (span : Span) (here there : Frame) :
    let call frame :=
      callFunction (evaluate host fuel) frame host.config.maxCallDepth f args span s
    (∃ v t, call here = .ok v t ∧ call there = .ok v t) ∨
    (∃ d e t, call here = .error (.failed d) t ∧ call there = .error (.failed e) t ∧
      e.fault = d.fault ∧ e.span = d.span ∧ e.notes = d.notes ∧
      (e.trace = d.trace ∨ ∃ inner, d.trace = inner ++ here.trace ∧ e.trace = inner ++ there.trace)) ∨
    ∃ t, call here = .error .exhausted t ∧ call there = .error .exhausted t := by
  intro call
  let C := Coupling.below host here.trace there.trace
  have coupled : C.Coupled (evaluate host fuel) (evaluate host fuel) :=
    Coupling.evaluate (.same fuel) (standard ▸ Discipline.hostless_admits)
  -- what a call sees of its frame is the trace
  have agree : C.Agrees (.root ⟨here.trace, 0⟩) there.trace s (fun _ _ => True) (call here)
      (call there) := by
    simp only [call, callFunction_root here 0, callFunction_root there 0]
    exact coupled.callFunction ⟨hostless, ⟨[], rfl, rfl⟩, trivial⟩ trivial fun _ _ => trivial
  generalize call here = first, call there = second at agree
  cases agree with
  | @value v t after fits => exact .inl ⟨v, t, rfl, rfl⟩
  | @stop x y t after both carries =>
    cases both.1 with
    | same =>
      cases x with
      | failed d => exact .inr (.inl ⟨d, d, t, rfl, rfl, rfl, rfl, rfl, .inl rfl⟩)
      | exhausted => exact .inr (.inr ⟨t, rfl, rfl⟩)
      | exitFunction _ | exitLoop _ | nextTurn _ => cases both.2
    | fault fault span inner notes =>
      exact .inr (.inl ⟨_, _, t, rfl, rfl, rfl, rfl, rfl, .inr ⟨inner, rfl, rfl⟩⟩)
  | off gone => exact gone.elim

/-- A function that fails, called by a program and in a loop of another function. -/
theorem callFunction_lexical_failing :
    let s : Session := { world := { store := ({} : Store).addRoot.2 } }
    let f : Function := ⟨some "f", [], [.access "x" default], 0⟩
    let call frame := callFunction (evaluate default 3) frame 1000 f [] default s
    s.world.store.Hostless ∧ ∃ d e t,
      call ⟨⟨["main"], 0⟩, false, false⟩ = .error (.failed d) t ∧
      call ⟨⟨["g()", "main"], 4⟩, true, true⟩ = .error (.failed e) t ∧ e.fault = d.fault := by
  intro s f call
  have hostless : s.world.store.Hostless := Store.hostless_empty.addRoot
  have found : ((callFunction (evaluate default 3) ⟨⟨["main"], 0⟩, false, false⟩ 1000 f []
      default).failure? s).isSome = true := by
    decide +kernel
  obtain ⟨d, ended⟩ := Option.isSome_iff_exists.mp found
  obtain ⟨t, failed⟩ := Eval.error_of_failure? ended
  refine ⟨hostless, ?_⟩
  have lexical := callFunction_lexical default rfl 3 s hostless f [] default
    ⟨⟨["main"], 0⟩, false, false⟩ ⟨⟨["g()", "main"], 4⟩, true, true⟩
  rcases lexical with ⟨v, u, value, _⟩ | ⟨d', e, u, first, second, same, _⟩ | ⟨u, cut, _⟩
  · cases value.symm.trans failed
  · exact ⟨d', e, u, first, second, same⟩
  · cases cut.symm.trans failed

end Evaluator

end BasicScript
