import BasicScript.Evaluate
import BasicScript.Proofs.Store.Native

/-! Couplings: two runs side by side, from one state and through equal states, until the first is
cut off or both stop. The second run may have a higher limit of calls, and its frames may have other
traces. A coupling says which frames the runs may be in and how their interrupts correspond, with a
law for each rule that makes a frame or an interrupt. A statement about a single run is the case in
which both runs are the same. -/

set_option autoImplicit false

namespace BasicScript

def Interrupt.isSignal : Interrupt → Bool
  | .exitFunction _ | .exitLoop _ | .nextTurn _ => true
  | .failed _ | .exhausted => false

def Interrupt.endsTurn : Interrupt → Bool
  | .exitLoop _ | .nextTurn _ => true
  | .exitFunction _ | .failed _ | .exhausted => false

def Interrupt.Carries (owns : Value → Prop) : Interrupt → Prop
  | .exitFunction v => owns v
  | _ => True

def Frame.withTrace (frame : Frame) (trace : List String) : Frame := { frame with trace }

@[simp] theorem Frame.withTrace_inFunction (frame : Frame) (trace : List String) :
    (frame.withTrace trace).inFunction = frame.inFunction := rfl
@[simp] theorem Frame.withTrace_inLoop (frame : Frame) (trace : List String) :
    (frame.withTrace trace).inLoop = frame.inLoop := rfl

def Host.withLimit (host : Host) (limit : Nat) : Host :=
  { host with config := { host.config with maxCallDepth := limit } }

def moduleEntry (name : String) : String := "<module " ++ name ++ ">"

def importNote (name : String) : String := "while importing module '" ++ name ++ "'"

def Eval.caught {α : Type} (handler : Interrupt → Eval α) :
    EStateM.Result Interrupt Session α → EStateM.Result Interrupt Session α
  | .ok a t => .ok a t
  | .error x t => handler x t

theorem Eval.tryCatch_eq {α : Type} (body : Eval α) (handler : Interrupt → Eval α) (s : Session) :
    (tryCatch body handler : Eval α) s = caught handler (body s) := by
  change EStateM.tryCatch body handler s = _
  delta EStateM.tryCatch
  generalize body s = outcome
  cases outcome with
  | ok a t => rfl
  | error x t => rfl

theorem Eval.mapInterrupt_eq {α : Type} (φ : Interrupt → Interrupt) (body : Eval α) (s : Session) :
    mapInterrupt φ body s = caught (fun stop => throw (φ stop)) (body s) :=
  tryCatch_eq body _ s

theorem Frame.trace_call {f : Frame} {τ : List String} (name : String) (scope : Handle)
    (same : τ = f.trace) : name :: τ = (f.enter name scope true).trace := by
  rw [same]
  rfl

theorem Frame.trace_module {f : Frame} {τ : List String} (name : String) (scope : Handle)
    (same : τ = f.trace) :
    moduleEntry name :: τ = (f.enter (moduleEntry name) scope false).trace := by
  rw [same]
  rfl

structure Coupling (D : Discipline) (host : Host) (limit : Nat) where
  /-- The frames that the first run may be in, while these files and so many calls are active, each
  with the trace of the second run. -/
  frames : List Path → Nat → Frame → List String → Prop
  /-- The interrupts that the two runs may end in, in such a frame. -/
  stops : Frame → List String → Interrupt → Interrupt → Prop
  /-- The interrupts that cut the first run off; the second may then go on. -/
  cut : Interrupt → Prop
  imports : String → Path → Prop
  fail {st : List Path} {d : Nat} {f : Frame} {τ : List String} {fault : Fault} {span : Span} :
    frames st d f τ → D.raises fault →
      stops f τ (.failed ⟨fault, span, f.trace, []⟩) (.failed ⟨fault, span, τ, []⟩)
  text {st : List Path} {d : Nat} {f : Frame} {τ : List String} {name : String} {path : Path}
    {text : String} {found : Diagnostic} : frames st d f τ → imports name path →
      host.files.read path = .ok text → Node.ofText path.text text = .error found →
      stops f τ (.failed (found.withNote (importNote name)))
        (.failed (found.withNote (importNote name)))
  exhausted {st : List Path} {d : Nat} {f : Frame} {τ : List String} :
    frames st d f τ → stops f τ .exhausted .exhausted
  exitFunction {st : List Path} {d : Nat} {f : Frame} {τ : List String} {v : Value} :
    frames st d f τ → f.inFunction = true → stops f τ (.exitFunction v) (.exitFunction v)
  exitLoop {st : List Path} {d : Nat} {f : Frame} {τ : List String} {span : Span} :
    frames st d f τ → f.inLoop = true → stops f τ (.exitLoop span) (.exitLoop span)
  nextTurn {st : List Path} {d : Nat} {f : Frame} {τ : List String} {span : Span} :
    frames st d f τ → f.inLoop = true → stops f τ (.nextTurn span) (.nextTurn span)
  alike {f : Frame} {τ : List String} {x y : Interrupt} : stops f τ x y →
    x = y ∨ ∃ d e, x = .failed d ∧ y = .failed e
  turn {st : List Path} {d : Nat} {f : Frame} {τ : List String} (scope : Handle) :
    frames st d f τ → frames st d (f.iteration scope) τ
  turn_left {f : Frame} {τ : List String} {scope : Handle} {x y : Interrupt} :
    stops (f.iteration scope) τ x y → x.endsTurn = false → stops f τ x y
  call {st : List Path} {d : Nat} {f : Frame} {τ : List String} (name : String)
    (scope : Handle) : frames st d f τ → d < host.config.maxCallDepth →
      frames st (d + 1) (f.enter name scope true) (name :: τ)
  module {st : List Path} {d : Nat} {f : Frame} {τ : List String} {path : Path} (name : String)
    (scope : Handle) : frames st d f τ → (∀ p ∈ st, p.same path = false) →
      frames (path :: st) d (f.enter (moduleEntry name) scope false) (moduleEntry name :: τ)
  module_left {f g : Frame} {τ : List String} {name : String} {scope : Handle}
    {x y : Interrupt} : stops (f.enter (moduleEntry name) scope false) (moduleEntry name :: τ) x y →
      g = f.enter (moduleEntry name) scope false →
      stops f τ ((x.escaped g).withNote (importNote name))
        ((y.escaped (g.withTrace (moduleEntry name :: τ))).withNote (importNote name))
  resolved {directory : Option Path} {name : String} {path : Path} :
    host.resolve? directory name = some (.file path) → imports name path
  cut_signal {x : Interrupt} : cut x → x.isSignal = false
  cut_withNote {x : Interrupt} {note : String} : cut x → cut (x.withNote note)
  /-- The limits are equal, or the first is lower and reaching it cuts the first run off. -/
  limits : limit = host.config.maxCallDepth ∨ host.config.maxCallDepth ≤ limit ∧
    ∀ name span trace, cut (.failed ⟨.recursionLimit host.config.maxCallDepth name, span, trace, []⟩)
  /-- Trusted host functions see their trace, so it must be the same in both runs. -/
  trace_eq {st : List Path} {d : Nat} {f : Frame} {τ : List String} {function : HostFunction} :
    D.trusts function → frames st d f τ → τ = f.trace

/-! Two laws of couplings under one limit that cut off nothing. -/

theorem Coupling.uncut_signal {x : Interrupt} (cut : False) : x.isSignal = false := cut.elim

theorem Coupling.uncut_limits (host : Host) :
    host.config.maxCallDepth = host.config.maxCallDepth ∨
      host.config.maxCallDepth ≤ host.config.maxCallDepth ∧
        (String → Span → List String → False) := .inl rfl

/-- Interrupts correspond outside of a call if they do inside of it. -/
class Coupling.Plain {D : Discipline} {host : Host} {limit : Nat} (C : Coupling D host limit) :
    Prop where
  failBuiltIn {st : List Path} {d : Nat} {f : Frame} {τ : List String} {fault : Fault}
    {span : Span} {name : String} : C.frames st d f τ → D.raises fault →
      C.stops f τ (.failed ⟨fault, span, name :: f.trace, []⟩)
        (.failed ⟨fault, span, name :: τ, []⟩)
  call_left {f : Frame} {τ : List String} {name : String} {scope : Handle} {x y : Interrupt} :
    C.stops (f.enter name scope true) (name :: τ) x y → (∀ v, x ≠ .exitFunction v) →
      C.stops f τ x y

/-- What the discipline says of the state `t` that a run reaches from the state `s`. -/
structure Discipline.After (D : Discipline) (s t : Session) : Prop where
  holds : D.holds t.world.store
  grows : s.world.store.Extends t.world.store
  importStack : t.importStack = s.importStack
  callDepth : t.callDepth = s.callDepth

namespace Discipline.After

variable {D : Discipline} {s t u : Session}

theorem refl (holds : D.holds s.world.store) : D.After s s := ⟨holds, .refl _, rfl, rfl⟩

theorem trans (first : D.After s t) (second : D.After t u) : D.After s u where
  holds := second.holds
  grows := first.grows.trans second.grows
  importStack := second.importStack.trans first.importStack
  callDepth := second.callDepth.trans first.callDepth

end Discipline.After

/-- The outcomes of two runs from the state `s` agree: they have one value, which is as `P` says, or
interrupts that correspond and carry owned values, and one state; or the first run has been cut
off. -/
inductive Agree {α : Type} (D : Discipline) (cut : Interrupt → Prop)
    (stops : Interrupt → Interrupt → Prop) (s : Session) (P : Store → α → Prop) :
    EStateM.Result Interrupt Session α → EStateM.Result Interrupt Session α → Prop
  | value {a : α} {t : Session} (after : D.After s t) (fits : P t.world.store a) :
      Agree D cut stops s P (.ok a t) (.ok a t)
  | stop {x y : Interrupt} {t : Session} (after : D.After s t) (both : stops x y)
      (carries : x.Carries (D.owns t.world.store)) : Agree D cut stops s P (.error x t) (.error y t)
  | off {x : Interrupt} {t : Session} {r : EStateM.Result Interrupt Session α} (gone : cut x) :
      Agree D cut stops s P (.error x t) r

namespace Agree

variable {α β : Type} {D : Discipline} {cut : Interrupt → Prop}
  {stops stops' : Interrupt → Interrupt → Prop} {s t : Session} {P : Store → α → Prop}
  {Q : Store → β → Prop} {first second : EStateM.Result Interrupt Session α}

theorem from_later (after : D.After s t) (agree : Agree D cut stops t P first second) :
    Agree D cut stops s P first second := by
  cases agree with
  | value after' fits => exact .value (after.trans after') fits
  | stop after' both carries => exact .stop (after.trans after') both carries
  | off gone => exact .off gone

theorem stops_mono (agree : Agree D cut stops s P first second)
    (weaker : ∀ x y, stops x y → stops' x y) : Agree D cut stops' s P first second := by
  cases agree with
  | value after fits => exact .value after fits
  | stop after both carries => exact .stop after (weaker _ _ both) carries
  | off gone => exact .off gone

theorem bind {m n : Eval α} {k l : α → Eval β} (begun : Agree D cut stops s P (m s) (n s))
    (ended : ∀ a t, D.After s t → P t.world.store a → Agree D cut stops t Q (k a t) (l a t)) :
    Agree D cut stops s Q ((m >>= k) s) ((n >>= l) s) := by
  simp only [Bind.bind, EStateM.bind]
  generalize m s = left, n s = right at begun ⊢
  cases begun with
  | value after fits => exact (ended _ _ after fits).from_later after
  | stop after both carries => exact .stop after both carries
  | off gone => exact .off gone

theorem pure {a : α} (holds : D.holds s.world.store) (fits : P s.world.store a) :
    Agree D cut stops s P ((Pure.pure a : Eval α) s) ((Pure.pure a : Eval α) s) :=
  .value (.refl holds) fits

theorem throw {x y : Interrupt} (holds : D.holds s.world.store) (both : stops x y)
    (carries : x.Carries (D.owns s.world.store)) :
    Agree D cut stops s P ((MonadExcept.throw x : Eval α) s) ((MonadExcept.throw y : Eval α) s) :=
  .stop (.refl holds) both carries

theorem get {k l : Session → Eval β} (agree : Agree D cut stops s Q (k s s) (l s s)) :
    Agree D cut stops s Q ((MonadState.get >>= k) s) ((MonadState.get >>= l) s) := agree

theorem read {view : Store → α} (holds : D.holds s.world.store)
    (fits : P s.world.store (view s.world.store)) :
    Agree D cut stops s P (Eval.read view s) (Eval.read view s) :=
  .value (.refl holds) fits

theorem change {update : Store → α × Store} (holds : D.holds (update s.world.store).2)
    (grows : s.world.store.Extends (update s.world.store).2)
    (fits : P (update s.world.store).2 (update s.world.store).1) :
    Agree D cut stops s P (Eval.change update s) (Eval.change update s) :=
  .value ⟨holds, grows, rfl, rfl⟩ fits

theorem mapInterrupt {m n : Eval α} {φ ψ : Interrupt → Interrupt}
    (agree : Agree D cut stops s P (m s) (n s)) (both : ∀ x y, stops x y → stops' (φ x) (ψ y))
    (carries : ∀ x owns, x.Carries owns → (φ x).Carries owns) (gone : ∀ x, cut x → cut (φ x)) :
    Agree D cut stops' s P (Eval.mapInterrupt φ m s) (Eval.mapInterrupt ψ n s) := by
  simp only [Eval.mapInterrupt_eq]
  generalize m s = left, n s = right at agree ⊢
  cases agree with
  | value after fits => exact .value after fits
  | stop after pair carried => exact .stop after (both _ _ pair) (carries _ _ carried)
  | off cutOff => exact .off (gone _ cutOff)

end Agree

namespace Agree

variable {α : Type} {D : Discipline} {cut : Interrupt → Prop}
  {stops stops' : Interrupt → Interrupt → Prop} {s : Session} {P : Store → α → Prop}

/-- Counting a call is undone however the body ends. -/
theorem nested {m n : Eval α}
    (agree : Agree D cut stops ⟨s.world, s.importStack, s.callDepth + 1⟩ P
      (m ⟨s.world, s.importStack, s.callDepth + 1⟩) (n ⟨s.world, s.importStack, s.callDepth + 1⟩)) :
    Agree D cut stops s P (Eval.nested m s) (Eval.nested n s) := by
  simp only [Eval.nested]
  generalize m _ = left, n _ = right at agree ⊢
  cases agree with
  | value after fits =>
    exact .value ⟨after.holds, after.grows, after.importStack, by simp [after.callDepth]⟩ fits
  | stop after both carries =>
    exact .stop ⟨after.holds, after.grows, after.importStack, by simp [after.callDepth]⟩ both
      carries
  | off gone => exact .off gone

theorem within {m n : Eval α} {path : Path}
    (agree : Agree D cut stops ⟨s.world, path :: s.importStack, s.callDepth⟩ P
      (m ⟨s.world, path :: s.importStack, s.callDepth⟩)
      (n ⟨s.world, path :: s.importStack, s.callDepth⟩)) :
    Agree D cut stops s P (Eval.within path m s) (Eval.within path n s) := by
  simp only [Eval.within]
  generalize m _ = left, n _ = right at agree ⊢
  cases agree with
  | value after fits =>
    exact .value ⟨after.holds, after.grows, by simp [after.importStack], after.callDepth⟩ fits
  | stop after both carries =>
    exact .stop ⟨after.holds, after.grows, by simp [after.importStack], after.callDepth⟩ both
      carries
  | off gone => exact .off gone

end Agree

namespace Coupling

variable {D : Discipline} {host : Host} {limit : Nat} (C : Coupling D host limit)

structure Ready (f : Frame) (τ : List String) (s : Session) : Prop where
  holds : D.holds s.world.store
  frames : C.frames s.importStack s.callDepth f τ
  runs : D.runs s.world.store f.scope

abbrev Agrees {α : Type} (f : Frame) (τ : List String) (s : Session) (P : Store → α → Prop) :=
  Agree D C.cut (C.stops f τ) s P

/-- Wherever the runs may be, the two evaluators do the same. -/
def Coupled (first second : Evaluator) : Prop :=
  ∀ node {f : Frame} {τ : List String} {s : Session}, C.Ready f τ s →
    C.Agrees f τ s D.owns (first node f s) (second node (f.withTrace τ) s)

variable {C}

namespace Ready

variable {f : Frame} {τ : List String} {s t : Session}

theorem after (ready : C.Ready f τ s) (after : D.After s t) : C.Ready f τ t where
  holds := after.holds
  frames := after.importStack ▸ after.callDepth ▸ ready.frames
  runs := D.runs_mono after.grows ready.runs

theorem sees (ready : C.Ready f τ s) : D.sees s.world.store f.scope := D.sees_of_runs ready.runs

variable {α : Type} {P : Store → α → Prop}

theorem fail {fault : Fault} {span : Span} (ready : C.Ready f τ s)
    (raised : fault.IsRuntime) :
    C.Agrees f τ s P (Eval.fail f fault span s) (Eval.fail (f.withTrace τ) fault span s) :=
  .stop (.refl ready.holds) (C.fail ready.frames (D.raises_runtime raised)) trivial

theorem fail_bind {β : Type} {fault : Fault} {span : Span} {k l : α → Eval β}
    {Q : Store → β → Prop} (ready : C.Ready f τ s) (raised : fault.IsRuntime) :
    C.Agrees f τ s Q ((Eval.fail f fault span >>= k) s)
      ((Eval.fail (f.withTrace τ) fault span >>= l) s) :=
  ready.fail (P := Q) raised

theorem act {span : Span} {act : Act α} (ready : C.Ready f τ s)
    (sound : D.SoundAct s.world.store P (act s.world.store)) :
    C.Agrees f τ s P (Eval.ofAct f span act s) (Eval.ofAct (f.withTrace τ) span act s) := by
  simp only [Eval.ofAct, Eval.ofEffect, Effect.ofAct]
  generalize act s.world.store = outcome at sound ⊢
  cases sound with
  | value holds grows fits => exact .value ⟨holds, grows, rfl, rfl⟩ fits
  | fault holds grows raised =>
    exact .stop ⟨holds, grows, rfl, rfl⟩ (C.fail ready.frames raised) trivial

end Ready

end Coupling

end BasicScript
