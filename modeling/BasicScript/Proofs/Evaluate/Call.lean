import BasicScript.Proofs.Evaluate.Loop

/-! Coupled evaluators do the same with calls. The first run may meet its limit where the second
goes on; then it is cut off. -/

set_option autoImplicit false

namespace BasicScript

namespace Evaluator

def bodyEnd : EStateM.Result Interrupt Session Unit → EStateM.Result Interrupt Session Value
  | .ok _ t => .ok .null t
  | .error (.exitFunction value) t => .ok value t
  | .error stop t => .error stop t

theorem bodyValue_eq (evaluate : Evaluator) (frame : Frame) (body : List Node) (s : Session) :
    evaluate.bodyValue frame body s = bodyEnd (evaluate.block frame body s) := by
  unfold bodyValue
  simp only [bind, EStateM.bind, Eval.tryCatch_eq]
  cases evaluate.block frame body s with
  | ok _ t => rfl
  | error stop t => cases stop <;> rfl

def dispatch (frame : Frame) (span : Span) (function : Function → Eval Value)
    (builtIn : BuiltIn → Eval Value) : Value → Eval Value
  | .function h => do function (← Eval.read fun s => s.functions[h]?.getD default)
  | .builtIn h => do builtIn (← Eval.read fun s => s.builtIns[h]?.getD default)
  | v => Eval.fail frame (.notCallable v.type) span

theorem callValue_eq (evaluate : Evaluator) (frame : Frame) (maxDepth : Nat) (callee : Value)
    (args : List Value) (span : Span) : evaluate.callValue frame maxDepth callee args span =
      dispatch frame span (evaluate.callFunction frame maxDepth · args span)
        (callBuiltIn frame · args span) callee := by
  cases callee <;> rfl

end Evaluator

/-- Only a host function sees the trace of its call. -/
theorem BuiltIn.call_eq_of_trace {b : BuiltIn} {args : List Value} {scope : Handle}
    {trace trace' : List String}
    (same : ∀ function, b.action = .host function → trace = trace') :
    b.call args trace scope = b.call args trace' scope := by
  obtain ⟨name, arity, action⟩ := b
  cases action with
  | host function => rw [same function rfl]
  | _ => rfl

namespace Coupling

variable {D : Discipline} {host : Host} {limit : Nat} {C : Coupling D host limit}
  {first second : Evaluator} {f : Frame} {τ : List String} {s : Session}

theorem Ready.bindParameters {scope : Handle} {span : Span} {bindings : List (String × Value)}
    (ready : C.Ready f τ s) (runs : D.runs s.world.store scope)
    (owned : ∀ binding ∈ bindings, D.owns s.world.store binding.2) :
    C.Agrees f τ s Discipline.anything (Evaluator.bindParameters f scope span bindings s)
      (Evaluator.bindParameters (f.withTrace τ) scope span bindings s) := by
  induction bindings generalizing s with
  | nil => exact .pure ready.holds trivial
  | cons binding rest ih =>
    apply Agree.bind (ready.act (Discipline.declare ready.holds runs (owned binding (by simp))))
    intro _ t after _
    refine ih (ready.after after) (D.runs_mono after.grows runs) fun other inside => ?_
    exact D.owns_mono after.grows (owned other (by simp [inside]))

/-- The call of a built-in is the same in both runs, and its faults correspond as `faults` says. -/
theorem Ready.callBuiltIn [D.LaxLists] {stops : Interrupt → Interrupt → Prop} {b : BuiltIn} {args : List Value}
    {span : Span} (ready : C.Ready f τ s)
    (within : b.action.Within (D.owns s.world.store) D.trusts D.mutates)
    (owned : ∀ v ∈ args, D.owns s.world.store v)
    (faults : ∀ fault, D.raises fault →
      stops (.failed ⟨fault, span, (b.name ++ "()") :: f.trace, []⟩)
        (.failed ⟨fault, span, (b.name ++ "()") :: τ, []⟩)) :
    Agree D C.cut stops s D.owns (Evaluator.callBuiltIn f b args span s)
      (Evaluator.callBuiltIn (f.withTrace τ) b args span s) := by
  have same : b.call args ((b.name ++ "()") :: τ) f.scope =
      b.call args ((b.name ++ "()") :: f.trace) f.scope := by
    refine BuiltIn.call_eq_of_trace fun function isHost => ?_
    rw [isHost] at within
    rw [C.trace_eq within ready.frames]
  have sound : D.SoundEffect s.world.store D.owns
      (b.call args ((b.name ++ "()") :: f.trace) f.scope s.world) :=
    Discipline.call ready.holds ready.sees within owned
  simp only [Evaluator.callBuiltIn, Eval.ofEffect, Frame.withTrace, same]
  generalize b.call args _ f.scope s.world = outcome at sound ⊢
  cases sound with
  | value holds grows fits => exact .value ⟨holds, grows, rfl, rfl⟩ fits
  | fault holds grows raised => exact .stop ⟨holds, grows, rfl, rfl⟩ (faults _ raised) trivial

/-- The body of a call gives its value to the caller and keeps its signals to itself. Inside of it
interrupts may correspond in another way than outside. -/
theorem bodyValue_agree {inside stops : Interrupt → Interrupt → Prop} {g : Frame} {body : List Node}
    (ran : Agree D C.cut inside s Discipline.anything (first.block f body s)
      (second.block g body s))
    (alike : ∀ x y, inside x y → x = y ∨ ∃ d e, x = .failed d ∧ y = .failed e)
    (left : ∀ x y, inside x y → (∀ v, x ≠ .exitFunction v) → stops x y) :
    Agree D C.cut stops s D.owns (first.bodyValue f body s) (second.bodyValue g body s) := by
  rw [Evaluator.bodyValue_eq, Evaluator.bodyValue_eq]
  generalize first.block f body s = one, second.block g body s = other at ran ⊢
  cases ran with
  | value after fits => exact .value after (D.owns_plain rfl)
  | @stop x y _ after both carries =>
    -- both runs stop with one interrupt, or with a fault each; only the way out is caught here
    rcases alike _ _ both with rfl | ⟨d, e, rfl, rfl⟩
    · cases x with
      | exitFunction v => exact .value after carries
      | failed _ | exitLoop _ | nextTurn _ | exhausted =>
        exact .stop after (left _ _ both (by simp)) trivial
    · exact .stop after (left _ _ both (by simp)) trivial
  | @off x _ _ gone =>
    have plain := C.cut_signal gone
    cases x with
    | failed _ | exhausted => exact .off gone
    | exitFunction _ | exitLoop _ | nextTurn _ => cases plain

section Functions

variable {g : Function} {name : String}

def SameBody (C : Coupling D host limit) (first second : Evaluator) (g : Function) (name : String)
    (f : Frame) (τ : List String) : Prop :=
  ∀ scope {s : Session}, C.Ready (f.enter name scope true) (name :: τ) s →
    C.Agrees f τ s D.owns (first.bodyValue (f.enter name scope true) g.body s)
      (second.bodyValue ((f.withTrace τ).enter name scope true) g.body s)

theorem SameBody.enterFunction {args : List Value} {span : Span}
    (same : SameBody C first second g name f τ) (ready : C.Ready f τ s)
    (below : s.callDepth < host.config.maxCallDepth) (sees : D.sees s.world.store g.closure)
    (owned : ∀ v ∈ args, D.owns s.world.store v) :
    C.Agrees f τ s D.owns
      ((do
        let scope ← Eval.change (·.addScope (some g.closure))
        Evaluator.bindParameters f scope span (g.params.zip args)
        Eval.nested (first.bodyValue (f.enter name scope true) g.body) : Eval Value) s)
      ((do
        let scope ← Eval.change (·.addScope (some g.closure))
        Evaluator.bindParameters (f.withTrace τ) scope span (g.params.zip args)
        Eval.nested (second.bodyValue ((f.withTrace τ).enter name scope true) g.body) :
          Eval Value) s) := by
  have ⟨holds, runs⟩ := D.scope_added ready.holds sees
  apply Agree.bind (P := D.runs) (.change holds (Store.extends_addScope _) runs)
  intro scope t after runs
  have ready := ready.after after
  refine Agree.bind (ready.bindParameters runs fun binding inside => ?_) fun _ u after' _ => ?_
  · exact D.owns_mono after.grows (owned _ (List.of_mem_zip inside).2)
  · have ready := ready.after after'
    have below : u.callDepth < host.config.maxCallDepth := by
      rw [after'.callDepth, after.callDepth]
      exact below
    exact Agree.nested (same scope
      ⟨ready.holds, C.call name scope ready.frames below, D.runs_mono after'.grows runs⟩)

theorem SameBody.callFunction {args : List Value} {span : Span}
    (same : SameBody C first second g (g.displayName ++ "()") f τ) (ready : C.Ready f τ s)
    (sees : D.sees s.world.store g.closure) (owned : ∀ v ∈ args, D.owns s.world.store v) :
    C.Agrees f τ s D.owns
      (first.callFunction f host.config.maxCallDepth g args span s)
      (second.callFunction (f.withTrace τ) limit g args span s) := by
  unfold Evaluator.callFunction
  by_cases count : args.length = g.params.length
  · simp only [ne_eq, count, not_true_eq_false, ↓reduceIte]
    refine Agree.get ?_
    -- the limit of the first run decides: at it the second may go on, but then the first is cut off
    by_cases full : host.config.maxCallDepth ≤ s.callDepth
    · rcases C.limits with rfl | ⟨_, gone⟩
      · rw [if_pos full, if_pos full]
        exact ready.fail_bind rfl
      · rw [if_pos full]
        exact .off (gone _ _ _)
    · have below : s.callDepth < host.config.maxCallDepth := Nat.lt_of_not_le full
      have within : ¬limit ≤ s.callDepth := by
        rcases C.limits with same | ⟨more, _⟩ <;> omega
      rw [if_neg full, if_neg within]
      exact same.enterFunction ready below sees owned
  · simp only [ne_eq, count, not_false_eq_true, ↓reduceIte]
    exact ready.fail_bind rfl

end Functions

/-- Both runs find the same function or built-in under a called value. -/
theorem Ready.dispatch {callee : Value} {span : Span} {k l : Function → Eval Value}
    {m n : BuiltIn → Eval Value} (ready : C.Ready f τ s) (ownsCallee : D.owns s.world.store callee)
    (function : ∀ g, D.sees s.world.store g.closure → C.Agrees f τ s D.owns (k g s) (l g s))
    (builtIn : ∀ b, b.action.Within (D.owns s.world.store) D.trusts D.mutates →
      C.Agrees f τ s D.owns (m b s) (n b s)) :
    C.Agrees f τ s D.owns (Evaluator.dispatch f span k m callee s)
      (Evaluator.dispatch (f.withTrace τ) span l n callee s) := by
  cases callee with
  | function h => exact function _ (D.sees_closure ready.holds ownsCallee)
  | builtIn h => exact builtIn _ (D.action_within ready.holds ownsCallee)
  | number _ | string _ | boolean _ | null | list _ | dictionary _ | module _ => exact ready.fail rfl

namespace Coupled

variable [C.Plain] (coupled : C.Coupled first second)

include coupled

theorem sameBody (g : Function) (name : String) (f : Frame) (τ : List String) :
    SameBody C first second g name f τ :=
  fun _ _ inner => bodyValue_agree (coupled.block inner) (fun _ _ => C.alike)
    fun _ _ => Plain.call_left

theorem callFunction {g : Function} {args : List Value} {span : Span} (ready : C.Ready f τ s)
    (sees : D.sees s.world.store g.closure) (owned : ∀ v ∈ args, D.owns s.world.store v) :
    C.Agrees f τ s D.owns
      (first.callFunction f host.config.maxCallDepth g args span s)
      (second.callFunction (f.withTrace τ) limit g args span s) :=
  (coupled.sameBody g _ f τ).callFunction ready sees owned

theorem callValue [D.LaxLists] {callee : Value} {args : List Value} {span : Span} (ready : C.Ready f τ s)
    (ownsCallee : D.owns s.world.store callee) (owned : ∀ v ∈ args, D.owns s.world.store v) :
    C.Agrees f τ s D.owns
      (first.callValue f host.config.maxCallDepth callee args span s)
      (second.callValue (f.withTrace τ) limit callee args span s) := by
  rw [Evaluator.callValue_eq, Evaluator.callValue_eq]
  exact ready.dispatch ownsCallee (fun _ sees => coupled.callFunction ready sees owned)
    fun _ within => ready.callBuiltIn within owned fun _ => Plain.failBuiltIn ready.frames

theorem call [D.LaxLists] {callee : Node} {args : List Node} {span : Span} (ready : C.Ready f τ s) :
    C.Agrees f τ s D.owns (first.call f host.config.maxCallDepth callee args span s)
      (second.call (f.withTrace τ) limit callee args span s) := by
  apply Agree.bind (coupled callee ready)
  intro value t after ownsCallee
  have ready := ready.after after
  apply Agree.bind (coupled.values ready D.ownsAll_empty)
  intro values u after owned
  exact coupled.callValue (ready.after after) (D.owns_mono after.grows ownsCallee)
    fun v inside => owned v (Array.mem_toList_iff.mp inside)

end Coupled

end Coupling

end BasicScript
