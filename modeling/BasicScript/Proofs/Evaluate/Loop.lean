import BasicScript.Proofs.Evaluate.Expression

/-! Coupled evaluators do the same with blocks, conditionals, loops and ranges. A loop of the second
run may have more fuel if running out of it cuts the first run off. -/

set_option autoImplicit false

namespace BasicScript

namespace Evaluator

def turnEnd : EStateM.Result Interrupt Session Unit → EStateM.Result Interrupt Session Bool
  | .ok _ t | .error (.nextTurn _) t => .ok true t
  | .error (.exitLoop _) t => .ok false t
  | .error stop t => .error stop t

theorem turn_eq (evaluate : Evaluator) (frame : Frame) (body : List Node) :
    evaluate.turn frame body = (do
      let scope ← Eval.change (·.addScope (some frame.scope))
      fun s => turnEnd (evaluate.block (frame.iteration scope) body s)) := by
  unfold turn
  congr 1
  funext scope s
  simp only [bind, EStateM.bind, Eval.tryCatch_eq]
  cases evaluate.block (frame.iteration scope) body s with
  | ok _ t => rfl
  | error stop t => cases stop <;> rfl

end Evaluator

theorem Range.isPlain_of_mem_fill {stop step current : Int64} {items : Array Value}
    (plain : ∀ v ∈ items, v.isPlain = true) :
    ∀ v ∈ Range.fill stop step current items, v.isPlain = true := by
  fun_induction Range.fill stop step current items with
  | case1 current items ahead items' next found ih =>
    refine ih fun v inside => ?_
    rcases Array.mem_push.mp inside with inside | rfl
    · exact plain v inside
    · rfl
  | case2 current items ahead items' last =>
    intro v inside
    rcases Array.mem_push.mp inside with inside | rfl
    · exact plain v inside
    · rfl
  | case3 => exact plain

namespace Coupling

variable {D : Discipline} {host : Host} {limit : Nat} {C : Coupling D host limit}
  {first second : Evaluator} {f : Frame} {τ : List String} {s : Session}

/-- The fuels of two runs: the same, or more for the second if an empty first one cuts it off. -/
def Fuels (C : Coupling D host limit) (n m : Nat) : Prop := n = m ∨ n ≤ m ∧ C.cut .exhausted

theorem Fuels.same (n : Nat) : C.Fuels n n := .inl rfl

theorem Fuels.pred {n m : Nat} (fuels : C.Fuels (n + 1) m) : ∃ k, m = k + 1 ∧ C.Fuels n k := by
  rcases fuels with rfl | ⟨more, gone⟩
  · exact ⟨n, rfl, .inl rfl⟩
  · exact ⟨m - 1, by omega, .inr ⟨by omega, gone⟩⟩

/-- A first run without fuel agrees with every second one that stops without fuel, too. -/
theorem Fuels.empty {α : Type} {P : Store → α → Prop} {m : Nat} (run : Nat → Eval α)
    (fuels : C.Fuels 0 m) (ready : C.Ready f τ s) (empty : run 0 = throw .exhausted) :
    C.Agrees f τ s P ((throw .exhausted : Eval α) s) (run m s) := by
  rcases fuels with rfl | ⟨_, gone⟩
  · rw [empty]
    exact .throw ready.holds (C.exhausted ready.frames) trivial
  · exact .off gone

theorem Ready.bindItem {item : String} {itemSpan : Span} (ready : C.Ready f τ s) :
    C.Agrees f τ s Discipline.anything (Evaluator.bindItem f item itemSpan s)
      (Evaluator.bindItem (f.withTrace τ) item itemSpan s) := by
  apply Agree.bind (P := Discipline.anything) (.read ready.holds trivial)
  intro present t after _
  have ready := ready.after after
  have owned : D.owns t.world.store .null := D.owns_plain rfl
  cases present with
  | true => exact ready.act (Discipline.assign ready.holds ready.sees owned)
  | false => exact ready.act (Discipline.declare ready.holds ready.runs owned)

theorem Ready.exitLoop {span : Span} (ready : C.Ready f τ s) :
    C.Agrees f τ s D.owns (Evaluator.exitLoop f span s)
      (Evaluator.exitLoop (f.withTrace τ) span s) := by
  cases inside : f.inLoop with
  | true =>
    simp only [Evaluator.exitLoop, Frame.withTrace_inLoop, inside]
    exact .throw ready.holds (C.exitLoop ready.frames inside) trivial
  | false =>
    simp only [Evaluator.exitLoop, Frame.withTrace_inLoop, inside]
    exact ready.fail rfl

theorem Ready.nextTurn {span : Span} (ready : C.Ready f τ s) :
    C.Agrees f τ s D.owns (Evaluator.nextTurn f span s)
      (Evaluator.nextTurn (f.withTrace τ) span s) := by
  cases inside : f.inLoop with
  | true =>
    simp only [Evaluator.nextTurn, Frame.withTrace_inLoop, inside]
    exact .throw ready.holds (C.nextTurn ready.frames inside) trivial
  | false =>
    simp only [Evaluator.nextTurn, Frame.withTrace_inLoop, inside]
    exact ready.fail rfl

namespace Coupled

variable (coupled : C.Coupled first second)

include coupled

theorem block {nodes : List Node} (ready : C.Ready f τ s) :
    C.Agrees f τ s Discipline.anything (first.block f nodes s)
      (second.block (f.withTrace τ) nodes s) := by
  induction nodes generalizing s with
  | nil => exact .pure ready.holds trivial
  | cons node rest ih =>
    exact Agree.bind (coupled node ready) fun _ t after _ => ih (ready.after after)

theorem ifElse {branches : List (Node × List Node)} {otherwise : Option (List Node)}
    (ready : C.Ready f τ s) :
    C.Agrees f τ s D.owns (first.ifElse f branches otherwise s)
      (second.ifElse (f.withTrace τ) branches otherwise s) := by
  induction branches generalizing s with
  | nil =>
    apply Agree.bind (coupled.block ready)
    intro _ t after _
    exact .pure after.holds (D.owns_plain rfl)
  | cons branch rest ih =>
    apply Agree.bind (coupled.condition ready)
    intro holds t after _
    have ready := ready.after after
    cases holds with
    | true =>
      apply Agree.bind (coupled.block ready)
      intro _ t after _
      exact .pure after.holds (D.owns_plain rfl)
    | false => exact ih ready

theorem turn {body : List Node} (ready : C.Ready f τ s) :
    C.Agrees f τ s Discipline.anything (first.turn f body s)
      (second.turn (f.withTrace τ) body s) := by
  rw [Evaluator.turn_eq, Evaluator.turn_eq]
  have ⟨holds, runs⟩ := D.scope_added ready.holds ready.sees
  apply Agree.bind (P := D.runs) (.change holds (Store.extends_addScope _) runs)
  intro scope t after runs
  have inner : C.Ready (f.iteration scope) τ t :=
    ⟨after.holds, C.turn scope (ready.after after).frames, runs⟩
  have ran : C.Agrees (f.iteration scope) τ t Discipline.anything
      (first.block (f.iteration scope) body t)
      (second.block ((f.iteration scope).withTrace τ) body t) := coupled.block inner
  change C.Agrees f τ t Discipline.anything
    (Evaluator.turnEnd (first.block (f.iteration scope) body t))
    (Evaluator.turnEnd (second.block ((f.iteration scope).withTrace τ) body t))
  generalize first.block (f.iteration scope) body t = left,
    second.block ((f.iteration scope).withTrace τ) body t = right at ran ⊢
  cases ran with
  | value after fits => exact .value after trivial
  | @stop x y _ after both carries =>
    -- signals are the same in both runs, so both loops take them in the same way
    rcases C.alike both with rfl | ⟨d, e, rfl, rfl⟩
    · cases x with
      | nextTurn _ | exitLoop _ => exact .value after trivial
      | failed _ | exitFunction _ | exhausted => exact .stop after (C.turn_left both rfl) carries
    · exact .stop after (C.turn_left both rfl) carries
  | @off x _ _ gone =>
    have plain := C.cut_signal gone
    cases x with
    | failed _ | exhausted => exact .off gone
    | exitFunction _ | exitLoop _ | nextTurn _ => cases plain

theorem whileLoop {test : Node} {body : List Node} {n m : Nat} (fuels : C.Fuels n m)
    (ready : C.Ready f τ s) :
    C.Agrees f τ s D.owns (first.whileLoop f test body n s)
      (second.whileLoop (f.withTrace τ) test body m s) := by
  -- on the turns that are left to the first run; the state is another one in each of them
  induction n generalizing m s with
  | zero => exact fuels.empty (second.whileLoop _ test body) ready rfl
  | succ n ih =>
    obtain ⟨m, rfl, fewer⟩ := fuels.pred
    apply Agree.bind (coupled.condition ready)
    intro holds t after _
    have ready := ready.after after
    cases holds with
    | false => exact .pure ready.holds (D.owns_plain rfl)
    | true =>
      apply Agree.bind (coupled.turn ready)
      intro goesOn u after _
      cases goesOn with
      | false => exact .pure after.holds (D.owns_plain rfl)
      | true => exact ih fewer (ready.after after)

theorem forItems {item : String} {itemSpan : Span} {list : Handle} {body : List Node}
    {n m index : Nat} (fuels : C.Fuels n m) (ready : C.Ready f τ s)
    (owned : D.owns s.world.store (.list list)) :
    C.Agrees f τ s D.owns (first.forItems f item itemSpan list body n index s)
      (second.forItems (f.withTrace τ) item itemSpan list body m index s) := by
  induction n generalizing m index s with
  | zero => exact fuels.empty (second.forItems _ item itemSpan list body · index) ready rfl
  | succ n ih =>
    obtain ⟨m, rfl, fewer⟩ := fuels.pred
    apply Agree.bind (P := fun t found => ∀ v ∈ found, D.owns t v) (.read ready.holds
      fun v found => D.owns_item ready.holds owned (Array.mem_of_getElem? found))
    intro found t after ownsItem
    have ready := ready.after after
    cases found with
    | none => exact .pure ready.holds (D.owns_plain rfl)
    | some value =>
      apply Agree.bind (ready.act (Discipline.assign ready.holds ready.sees (ownsItem value rfl)))
      intro _ u after' _
      have ready := ready.after after'
      apply Agree.bind (coupled.turn ready)
      intro goesOn r after'' _
      cases goesOn with
      | false => exact .pure after''.holds (D.owns_plain rfl)
      | true =>
        -- the body may change the list, but the run still owns it
        have grows := (after.grows.trans after'.grows).trans after''.grows
        exact ih fewer (ready.after after'') (D.owns_mono grows owned)

theorem forLoop {item : String} {itemSpan : Span} {iterable : Node} {body : List Node}
    {n m : Nat} (fuels : C.Fuels n m) (ready : C.Ready f τ s) :
    C.Agrees f τ s D.owns (first.forLoop f n item itemSpan iterable body s)
      (second.forLoop (f.withTrace τ) m item itemSpan iterable body s) := by
  apply Agree.bind (coupled iterable ready)
  intro value t after owned
  have ready := ready.after after
  cases value with
  | list list =>
    apply Agree.bind ready.bindItem
    intro _ u after _
    exact coupled.forItems fuels (ready.after after) (D.owns_mono after.grows owned)
  | number _ | string _ | boolean _ | null | dictionary _ | function _ | builtIn _ | module _ =>
    exact ready.fail rfl

theorem exitFunction {value : Option Node} {span : Span} (ready : C.Ready f τ s) :
    C.Agrees f τ s D.owns (first.exitFunction f value span s)
      (second.exitFunction (f.withTrace τ) value span s) := by
  cases inside : f.inFunction with
  | false =>
    simp only [Evaluator.exitFunction, Frame.withTrace_inFunction, inside]
    exact ready.fail_bind rfl
  | true =>
    simp only [Evaluator.exitFunction, Frame.withTrace_inFunction, inside]
    cases value with
    | none => exact .throw ready.holds (C.exitFunction ready.frames inside) (D.owns_plain rfl)
    | some node =>
      apply Agree.bind (coupled node ready)
      intro v t after owned
      exact .throw after.holds (C.exitFunction (ready.after after).frames inside) owned

theorem bound {node : Node} (ready : C.Ready f τ s) :
    C.Agrees f τ s Discipline.anything (first.bound f node s)
      (second.bound (f.withTrace τ) node s) := by
  apply Agree.bind (coupled node ready)
  intro value t after _
  have ready := ready.after after
  cases value with
  | number n =>
    cases n with
    | int n => exact .pure ready.holds trivial
    | float _ => exact ready.fail rfl
  | string _ | boolean _ | null | list _ | dictionary _ | function _ | builtIn _ | module _ =>
    exact ready.fail rfl

theorem range {start stop step : Node} {span : Span} (ready : C.Ready f τ s) :
    C.Agrees f τ s D.owns (first.range f start stop step span s)
      (second.range (f.withTrace τ) start stop step span s) := by
  apply Agree.bind (coupled.bound ready)
  intro start t after _
  have ready := ready.after after
  apply Agree.bind (coupled.bound ready)
  intro stop u after _
  have ready := ready.after after
  apply Agree.bind (coupled.bound ready)
  intro step r after _
  have ready := ready.after after
  by_cases zero : step = 0
  · simp only [zero, ↓reduceIte]
    exact ready.fail_bind rfl
  · simp only [zero, ↓reduceIte]
    have owned : ∀ v ∈ Range.fill stop step start #[],
        D.owns r.world.store v :=
      fun v inside => D.owns_plain (Range.isPlain_of_mem_fill (by simp) v inside)
    have ⟨holds, owns⟩ := D.list_added ready.holds owned
    exact .change holds (Store.extends_addList _) owns

end Coupled

end Coupling

end BasicScript
