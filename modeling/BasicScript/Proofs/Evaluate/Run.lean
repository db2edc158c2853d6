import BasicScript.Proofs.Evaluate.Import

/-! The evaluators of two runs are coupled: one step of them is, if the evaluators for the parts
are, and so by induction on the fuel all of their steps are. Programs then run alike, too. -/

set_option autoImplicit false

namespace BasicScript.Coupling

variable {D : Discipline} [D.Free] {host : Host} {limit : Nat} {C : Coupling D host limit}

/-- Nodes of all kinds but those that may change a container or make a dictionary. -/
theorem Coupled.step_steady [D.Converts] {first second : Evaluator} {n m : Nat} {node : Node}
    {f : Frame} {τ : List String} {s : Session} (coupled : C.Coupled first second)
    (fuels : C.Fuels n m) (admits : D.Admits host.natives)
    (noCall : ∀ callee args span, node ≠ .call callee args span)
    (noDictionary : ∀ entries span, node ≠ .dictionary entries span)
    (noSetIndex : ∀ base index value span, node ≠ .setIndex base index value span)
    (ready : C.Ready f τ s) :
    C.Agrees f τ s D.owns (Evaluator.step host n first node f s)
      (Evaluator.step (host.withLimit limit) m second node (f.withTrace τ) s) := by
  cases node with
  | number _ _ | string _ _ => exact .pure ready.holds (D.owns_plain rfl)
  | binary _ _ _ _ => exact coupled.binary ready
  | unary _ _ _ => exact coupled.unary ready
  | access _ _ => exact ready.access
  | declare _ _ _ _ => exact coupled.declare ready
  | assign _ _ _ _ => exact coupled.assign ready
  | list _ _ => exact coupled.list ready
  | dictionary entries span => exact absurd rfl (noDictionary entries span)
  | getIndex _ _ _ => exact coupled.getIndex ready
  | setIndex base index value span => exact absurd rfl (noSetIndex base index value span)
  | member _ _ _ => exact coupled.member (fun _ => Discipline.Free.mutates) ready
  | function _ _ _ _ => exact ready.function (Discipline.Free.bodies _)
  | call callee args span => exact absurd rfl (noCall callee args span)
  | ifElse _ _ _ => exact coupled.ifElse ready
  | whileLoop _ _ _ => exact coupled.whileLoop fuels ready
  | forLoop _ _ _ _ _ => exact coupled.forLoop fuels ready
  | exitFunction _ _ => exact coupled.exitFunction ready
  | exitLoop _ => exact ready.exitLoop
  | nextTurn _ => exact ready.nextTurn
  | importModule _ _ _ => exact coupled.importModule admits ready
  | range _ _ _ _ => exact coupled.range ready

variable [D.Lax]

/-- Nodes of all kinds but calls. -/
theorem Coupled.step_other {first second : Evaluator} {n m : Nat} {node : Node} {f : Frame}
    {τ : List String} {s : Session} (coupled : C.Coupled first second) (fuels : C.Fuels n m)
    (admits : D.Admits host.natives) (other : ∀ callee args span, node ≠ .call callee args span)
    (ready : C.Ready f τ s) :
    C.Agrees f τ s D.owns (Evaluator.step host n first node f s)
      (Evaluator.step (host.withLimit limit) m second node (f.withTrace τ) s) := by
  cases node with
  | call callee args span => exact absurd rfl (other callee args span)
  | dictionary _ _ => exact coupled.dictionary ready
  | setIndex _ _ _ _ => exact coupled.setIndex Discipline.Free.mutates ready
  | _ => exact coupled.step_steady fuels admits nofun nofun nofun ready

theorem Coupled.step [C.Plain] {first second : Evaluator} {n m : Nat}
    (coupled : C.Coupled first second) (fuels : C.Fuels n m) (admits : D.Admits host.natives) :
    C.Coupled (Evaluator.step host n first) (Evaluator.step (host.withLimit limit) m second) := by
  intro node f τ s ready
  cases node with
  | call _ _ _ => exact coupled.call ready
  | _ => exact coupled.step_other fuels admits nofun ready

theorem evaluate [C.Plain] {n m : Nat} (fuels : C.Fuels n m) (admits : D.Admits host.natives) :
    C.Coupled (BasicScript.evaluate host n) (BasicScript.evaluate (host.withLimit limit) m) := by
  -- on the fuel of the first run; the second has at least as much
  induction n generalizing m with
  | zero =>
    intro node f τ s ready
    exact fuels.empty (fun m => BasicScript.evaluate (host.withLimit limit) m node (f.withTrace τ))
      ready rfl
  | succ n ih =>
    obtain ⟨k, rfl, less⟩ := fuels.pred
    exact (ih less).step less admits

end BasicScript.Coupling

namespace BasicScript

/-- The signals that may be on their way in a frame. -/
def Interrupt.PermittedIn (frame : Frame) : Interrupt → Prop
  | .exitFunction _ => frame.inFunction = true
  | .exitLoop _ | .nextTurn _ => frame.inLoop = true
  | .failed _ | .exhausted => True

structure Upkeep (host : Host) where
  keeps : List Path → Nat → Frame → Prop
  turn {st : List Path} {d : Nat} {f : Frame} (scope : Handle) :
    keeps st d f → keeps st d (f.iteration scope)
  call {st : List Path} {d : Nat} {f : Frame} (name : String) (scope : Handle) :
    keeps st d f → d < host.config.maxCallDepth → keeps st (d + 1) (f.enter name scope true)
  module {st : List Path} {d : Nat} {f : Frame} {path : Path} (name : String) (scope : Handle) :
    keeps st d f → (∀ p ∈ st, p.same path = false) →
      keeps (path :: st) d (f.enter (moduleEntry name) scope false)

def Upkeep.any (host : Host) : Upkeep host where
  keeps _ _ _ := True
  turn _ _ := trivial
  call _ _ _ _ := trivial
  module _ _ _ _ := trivial

/-- A run beside itself. Its signals are permitted where they are on their way. -/
def Coupling.single (D : Discipline) {host : Host} (upkeep : Upkeep host) :
    Coupling D host host.config.maxCallDepth where
  frames st d f τ := τ = f.trace ∧ upkeep.keeps st d f
  stops f _ x y := x = y ∧ x.PermittedIn f
  cut _ := False
  imports _ _ := True
  fail := by
    rintro _ _ f τ _ _ ⟨rfl, _⟩ _
    exact ⟨rfl, trivial⟩
  text _ _ _ _ := ⟨rfl, trivial⟩
  exhausted _ := ⟨rfl, trivial⟩
  exitFunction _ inside := ⟨rfl, inside⟩
  exitLoop _ inside := ⟨rfl, inside⟩
  nextTurn _ inside := ⟨rfl, inside⟩
  alike both := .inl both.1
  turn scope := fun ⟨same, keeps⟩ => ⟨same, upkeep.turn scope keeps⟩
  turn_left := by
    rintro f τ scope x y ⟨rfl, permitted⟩ stays
    refine ⟨rfl, ?_⟩
    cases x with
    | exitFunction _ | failed _ | exhausted => exact permitted
    | exitLoop _ | nextTurn _ => cases stays
  call name scope := fun ⟨same, keeps⟩ below =>
    ⟨Frame.trace_call name scope same, upkeep.call name scope keeps below⟩
  module name scope := fun ⟨same, keeps⟩ absent =>
    ⟨Frame.trace_module name scope same, upkeep.module name scope keeps absent⟩
  module_left := by
    rintro f g τ name scope x y ⟨rfl, permitted⟩ _
    cases x with
    | exitFunction _ | exitLoop _ | nextTurn _ => cases permitted
    | failed _ | exhausted => exact ⟨rfl, trivial⟩
  resolved _ := trivial
  cut_signal := Coupling.uncut_signal
  cut_withNote := id
  limits := Coupling.uncut_limits host
  trace_eq _ := And.left

/-- A run beside another with at least its limit, until something of this kind cuts it off. -/
def Coupling.cutBy (D : Discipline) {host : Host} {limit : Nat} (cut : Interrupt → Prop)
    (signal : ∀ {x : Interrupt}, cut x → x.isSignal = false)
    (note : ∀ {x : Interrupt} {note : String}, cut x → cut (x.withNote note))
    (limits : limit = host.config.maxCallDepth ∨ host.config.maxCallDepth ≤ limit ∧
      ∀ name span trace, cut (.failed ⟨.recursionLimit host.config.maxCallDepth name, span, trace, []⟩)) :
    Coupling D host limit where
  frames _ _ f τ := τ = f.trace
  stops f τ x y := τ = f.trace ∧ x = y
  cut := cut
  imports _ _ := True
  fail := by
    rintro _ _ f τ _ _ rfl _
    exact ⟨rfl, rfl⟩
  text same _ _ _ := ⟨same, rfl⟩
  exhausted same := ⟨same, rfl⟩
  exitFunction same _ := ⟨same, rfl⟩
  exitLoop same _ := ⟨same, rfl⟩
  nextTurn same _ := ⟨same, rfl⟩
  alike both := .inl both.2
  turn _ same := same
  turn_left both _ := both
  call name scope same _ := Frame.trace_call name scope same
  module name scope same _ := Frame.trace_module name scope same
  module_left := by
    rintro f g τ name scope x y ⟨same, rfl⟩ rfl
    obtain rfl := (List.cons.inj same).2
    exact ⟨rfl, rfl⟩
  resolved _ := trivial
  cut_signal := signal
  cut_withNote := note
  limits := limits
  trace_eq _ := id

instance (D : Discipline) {host : Host} {limit : Nat} {cut : Interrupt → Prop}
    (signal : ∀ {x : Interrupt}, cut x → x.isSignal = false)
    (note : ∀ {x : Interrupt} {note : String}, cut x → cut (x.withNote note))
    (limits : limit = host.config.maxCallDepth ∨ host.config.maxCallDepth ≤ limit ∧
      ∀ name span trace, cut (.failed ⟨.recursionLimit host.config.maxCallDepth name, span, trace, []⟩)) :
    (Coupling.cutBy D cut signal note limits).Plain where
  failBuiltIn := by
    rintro _ _ f τ _ _ _ rfl _
    exact ⟨rfl, rfl⟩
  call_left both _ := ⟨(List.cons.inj both.1).2, both.2⟩

instance (D : Discipline) {host : Host} (upkeep : Upkeep host) :
    (Coupling.single D upkeep).Plain where
  failBuiltIn := by
    rintro _ _ f τ _ _ _ ⟨rfl, _⟩ _
    exact ⟨rfl, trivial⟩
  call_left := by
    rintro f τ name scope x y ⟨rfl, permitted⟩ caught
    refine ⟨rfl, ?_⟩
    cases x with
    | exitFunction v => exact absurd rfl (caught v)
    -- the body of a function is in no loop, even if its call is
    | exitLoop _ | nextTurn _ => cases permitted
    | failed _ | exhausted => trivial

def Eval.final {α : Type} (body : Eval α) (s : Session) : Session :=
  match body s with
  | .ok _ t | .error _ t => t

def Eval.value? {α : Type} (body : Eval α) (s : Session) : Option α :=
  match body s with
  | .ok a _ => some a
  | .error _ _ => none

def Eval.hasValue {α : Type} (body : Eval α) (s : Session) : Bool :=
  match body s with
  | .ok _ _ => true
  | .error _ _ => false

theorem Eval.ok_of_hasValue {α : Type} {body : Eval α} {s : Session}
    (ended : body.hasValue s = true) : ∃ a t, body s = .ok a t := by
  unfold hasValue at ended
  generalize body s = outcome at ended ⊢
  cases outcome with
  | ok a t => exact ⟨a, t, rfl⟩
  | error x t => cases ended

def Eval.failure? {α : Type} (body : Eval α) (s : Session) : Option Diagnostic :=
  match body s with
  | .error (.failed d) _ => some d
  | _ => none

theorem Eval.error_of_failure? {α : Type} {body : Eval α} {s : Session} {d : Diagnostic}
    (ended : body.failure? s = some d) : ∃ t, body s = .error (.failed d) t := by
  unfold failure? at ended
  split at ended
  case h_1 t same =>
    cases ended
    exact ⟨t, same⟩
  case h_2 => cases ended

namespace Agree

variable {α : Type} {D : Discipline} {stops : Interrupt → Interrupt → Prop} {s : Session}
  {P : Store → α → Prop}

theorem final {m n : Eval α} (agree : Agree D (fun _ => False) stops s P (m s) (n s)) :
    D.After s (Eval.final m s) := by
  unfold Eval.final
  generalize m s = left, n s = right at agree ⊢
  cases agree with
  | value after _ | stop after _ _ => exact after
  | off gone => exact gone.elim

theorem same {first second : EStateM.Result Interrupt Session α}
    (agree : Agree D (fun _ => False) stops s P first second)
    (equal : ∀ x y, stops x y → x = y) : first = second := by
  cases agree with
  | value _ _ => rfl
  | stop _ both _ => rw [equal _ _ both]
  | off gone => exact gone.elim

end Agree

/-- A first run that is not cut off agrees with the second to its end. -/
theorem Agree.uncut {α : Type} {D : Discipline} {cut : Interrupt → Prop}
    {stops : Interrupt → Interrupt → Prop} {s : Session} {P : Store → α → Prop}
    {first second : EStateM.Result Interrupt Session α} (agree : Agree D cut stops s P first second)
    (going : ¬∃ x t, first = .error x t ∧ cut x) : Agree D (fun _ => False) stops s P first second := by
  cases agree with
  | value after fits => exact .value after fits
  | stop after both carries => exact .stop after both carries
  | @off x t _ gone => exact absurd ⟨x, t, rfl, gone⟩ going

namespace Coupling

variable {D : Discipline} {host : Host} {upkeep : Upkeep host}

/-- What interrupts a single run is permitted in its frame. -/
theorem permitted {α : Type} {f : Frame} {τ : List String} {s t : Session} {P : Store → α → Prop}
    {x : Interrupt} {r : EStateM.Result Interrupt Session α}
    (agree : (single D upkeep).Agrees f τ s P (.error x t) r) : x.PermittedIn f := by
  cases agree with
  | stop _ both _ => exact both.2
  | off gone => exact gone.elim

theorem Coupled.program {first second : Evaluator} {context : Context} {nodes : List Node}
    {s : Session} (coupled : (single D upkeep).Coupled first second)
    (ready : (single D upkeep).Ready (.root context) context.trace s) :
    Agree D (fun _ => False) Eq s Discipline.anything (first.statements (.root context) nodes s)
      (second.statements (.root context) nodes s) := by
  refine (coupled.statements ready).stops_mono fun x y both => ?_
  obtain ⟨x', y', ⟨rfl, _⟩, rfl, rfl⟩ := both
  rfl

end Coupling

namespace Eval

variable {D : Discipline} [D.Free] [D.Lax] {host : Host} {s : Session}

omit [D.Free] [D.Lax] in
theorem newContext_agree {cut : Interrupt → Prop} {stops : Interrupt → Interrupt → Prop}
    (name : String) (holds : D.holds s.world.store) :
    Agree D cut stops s (fun t context => D.runs t context.scope) (newContext name s)
      (newContext name s) :=
  Agree.bind (.newRoot holds) fun _ _ after runs => .pure after.holds runs

theorem interpret_agree (fuel : Nat) (nodes : List Node) (context : Context)
    (holds : D.holds s.world.store) (runs : D.runs s.world.store context.scope)
    (admits : D.Admits host.natives) :
    Agree D (fun _ => False) Eq s Discipline.anything (interpret host fuel nodes context s)
      (interpret host fuel nodes context s) := by
  have coupled : (Coupling.single D (.any host)).Coupled (evaluate host fuel)
      (evaluate host fuel) :=
    Coupling.evaluate (.same fuel) admits
  exact coupled.program ⟨holds, ⟨rfl, trivial⟩, runs⟩

theorem runFile_agree (fuel : Nat) (path : Path) (nodes : List Node)
    (holds : D.holds s.world.store) (admits : D.Admits host.natives) :
    Agree D (fun _ => False) Eq s Discipline.anything (runFile host fuel path nodes s)
      (runFile host fuel path nodes s) := by
  apply Agree.bind (newContext_agree path.text holds)
  intro context t after runs
  exact Agree.within (interpret_agree fuel nodes context after.holds runs admits)

end Eval

end BasicScript
