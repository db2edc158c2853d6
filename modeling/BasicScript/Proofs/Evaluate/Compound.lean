import BasicScript.Proofs.Evaluate.Likeness
import BasicScript.Proofs.Evaluate.Run

/-! Compound assignments as plain ones. A compound assignment reads its variable behind the value,
while an operator reads its left operand first. Where the value does not change the variable, this
is the same. -/

set_option autoImplicit false

namespace BasicScript

theorem SameEnd.value?_eq {α : Type} {states : Session → Session → Prop}
    {stops : Interrupt → Interrupt → Prop} {m n : Eval α} {s t : Session}
    (ends : SameEnd states stops (m s) (n t)) : m.value? s = n.value? t := by
  unfold Eval.value?
  generalize m s = first, n t = second at ends ⊢
  cases ends with
  | value _ | stop _ _ => rfl

theorem Eval.ofAct_same {α : Type} (frame : Frame) (first second : Span) (act : Act α) :
    BasicScript.Same Eq Interrupt.Alike (Eval.ofAct frame first act)
      (Eval.ofAct frame second act) := by
  rintro s _ rfl
  unfold Eval.ofAct Eval.ofEffect
  dsimp only
  generalize Effect.ofAct act s.world = outcome
  cases outcome with
  | ok a world => exact .value rfl
  | error fault world => exact .stop (.failed fault frame.trace [] first second) rfl

namespace Evaluator

def update (frame : Frame) (name : String) (operator : BinaryOperator) (first second : Span)
    (v w : Value) : Eval Value := do
  let value ← Eval.ofAct frame first (Store.binary operator v w)
  Eval.ofAct frame second (Store.assign frame.scope name value)
  return value

section

variable (host : Host) (fuel : Nat) (frame : Frame) (name : String) (operator : BinaryOperator)
  (e : Node) (span left right outer : Span)

theorem update_same (first second first' second' : Span) (v w : Value) :
    BasicScript.Same Eq Interrupt.Alike (update frame name operator first second v w)
      (update frame name operator first' second' v w) :=
  Same.bind (Eval.ofAct_same frame first first' _) fun value =>
    Same.bind (Eval.ofAct_same frame second second' _) fun _ => Same.pure value

theorem evaluate_compound :
    evaluate host (fuel + 1) (.assign name (some operator) e span) frame = (do
      let w ← evaluate host fuel e frame
      let v ← access frame name span
      update frame name operator span span v w) := by
  simp only [evaluate, step, assign, update]

theorem evaluate_expansion :
    evaluate host (fuel + 3)
        (.assign name none (.binary (.access name left) operator e right) outer) frame = (do
      let v ← access frame name left
      let w ← evaluate host (fuel + 1) e frame
      update frame name operator right outer v w) := by
  have operands : evaluate host (fuel + 2) (.binary (.access name left) operator e right) frame = (do
      let v ← access frame name left
      let w ← evaluate host (fuel + 1) e frame
      Eval.ofAct frame right (Store.binary operator v w)) := rfl
  rw [evaluate, step, assign, operands]
  simp only [update, bind_assoc, pure_bind]

end

variable {host : Host} {fuel : Nat} {frame : Frame} {s : Session} {name : String} {v : Value}

theorem access_of_lookup (bound : s.world.store.lookup frame.scope name = .ok v) (span : Span) :
    access frame name span s = .ok v s := by
  simp only [access, Eval.ofAct, Eval.ofEffect, Effect.ofAct, Act.readExcept, bound]
  rfl

/-- An assignment `x op= e` to a variable that the evaluation of `e` leaves with the value it had.
It does what `x = x op e` does, with the same value or a fault of one kind and message at the end,
and in the same state. The variable may be found in any scope that is visible. -/
theorem compound_expands (host : Host) (fuel : Nat) (name : String) (operator : BinaryOperator)
    (e : Node) (span left right outer : Span) (frame : Frame) {s : Session} {v : Value}
    (bound : s.world.store.lookup frame.scope name = .ok v)
    (untouched : ∀ w t, evaluate host fuel e frame s = .ok w t →
      t.world.store.lookup frame.scope name = .ok v) :
    let compound : Node := .assign name (some operator) e span
    let expansion : Node := .assign name none (.binary (.access name left) operator e right) outer
    SameEnd Eq Interrupt.Alike (evaluate host (fuel + 1) compound frame s)
      (evaluate host (fuel + 2) expansion frame s) := by
  intro compound expansion
  cases fuel with
  | zero => exact .stop .exhausted rfl
  | succ n =>
    rw [evaluate_compound, evaluate_expansion, bind_of_ok (access_of_lookup bound left)]
    cases ended : evaluate host (n + 1) e frame s with
    | error x t =>
      rw [bind_of_error ended, bind_of_error ended]
      exact .stop (.refl x) rfl
    | ok w t =>
      have kept := access_of_lookup (untouched w t ended) span
      rw [bind_of_ok ended, bind_of_ok ended, bind_of_ok kept]
      exact update_same frame name operator _ _ _ _ v w rfl

/-- A value from a call that changes another variable. -/
theorem compound_expands_counted :
    let text := "LET x = 1\nLET n = 1\nFUNCTION next()\nn += 1\nRETURN n\nEND"
    let s := Eval.final (Eval.runText default 9 "m" text) {}
    let frame : Frame := .root ⟨["m"], 0⟩
    let e : Node := .call (.access "next" default) [] default
    let compound : Node := .assign "x" (some .add) e default
    let expansion : Node :=
      .assign "x" none (.binary (.access "x" default) .add e default) default
    s.world.store.lookup frame.scope "x" = .ok (.number (.int 1)) ∧
      (∀ w t, evaluate default 9 e frame s = .ok w t →
        t.world.store.lookup frame.scope "x" = .ok (.number (.int 1))) ∧
      SameEnd Eq Interrupt.Alike (evaluate default 10 compound frame s)
        (evaluate default 11 expansion frame s) := by
  intro text s frame e compound expansion
  have bound : s.world.store.lookup frame.scope "x" = .ok (.number (.int 1)) := by decide +kernel
  have untouched : ∀ w t, evaluate default 9 e frame s = .ok w t →
      t.world.store.lookup frame.scope "x" = .ok (.number (.int 1)) := by
    intro w t ended
    have final : Eval.final (evaluate default 9 e frame) s = t := by
      simp only [Eval.final, ended]
    rw [← final]
    decide +kernel
  exact ⟨bound, untouched,
    compound_expands default 9 "x" .add e default default default default frame bound untouched⟩

/-- The value changes the variable: the two assignments end in different values. -/
theorem compound_expands_reassigned :
    let text := "LET x = 1\nFUNCTION f()\nx = 10\nRETURN 1\nEND"
    let s := Eval.final (Eval.runText default 9 "m" text) {}
    let frame : Frame := .root ⟨["m"], 0⟩
    let e : Node := .call (.access "f" default) [] default
    let compound : Node := .assign "x" (some .add) e default
    let expansion : Node :=
      .assign "x" none (.binary (.access "x" default) .add e default) default
    s.world.store.lookup frame.scope "x" = .ok (.number (.int 1)) ∧
      Eval.value? (evaluate default 10 compound frame) s = some (.number (.int 11)) ∧
      Eval.value? (evaluate default 11 expansion frame) s = some (.number (.int 2)) ∧
      ¬SameEnd Eq Interrupt.Alike (evaluate default 10 compound frame s)
        (evaluate default 11 expansion frame s) := by
  intro text s frame e compound expansion
  have first : Eval.value? (evaluate default 10 compound frame) s = some (.number (.int 11)) := by
    decide +kernel
  have second : Eval.value? (evaluate default 11 expansion frame) s = some (.number (.int 2)) := by
    decide +kernel
  refine ⟨by decide +kernel, first, second, fun ends => ?_⟩
  have same := first.symm.trans (ends.value?_eq.trans second)
  exact absurd same (by decide +kernel)

end Evaluator

end BasicScript
