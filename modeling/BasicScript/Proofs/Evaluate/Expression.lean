import BasicScript.Proofs.Evaluate.Coupling

/-! Coupled evaluators do the same with expressions and declarations. -/

set_option autoImplicit false

namespace BasicScript.Coupling

variable {D : Discipline} {host : Host} {limit : Nat} {C : Coupling D host limit}
  {first second : Evaluator} {f : Frame} {τ : List String} {s : Session}

namespace Ready

theorem access {name : String} {span : Span} (ready : C.Ready f τ s) :
    C.Agrees f τ s D.owns (Evaluator.access f name span s)
      (Evaluator.access (f.withTrace τ) name span s) :=
  ready.act (Discipline.readExcept ready.holds Store.refuses_lookup fun _ =>
    D.owns_variable ready.holds ready.sees)

theorem function {name : Option String} {params : List String} {body : List Node} {span : Span}
    (allowed : D.bodies body) (ready : C.Ready f τ s) :
    C.Agrees f τ s D.owns (Evaluator.function f name params body span s)
      (Evaluator.function (f.withTrace τ) name params body span s) := by
  have ⟨holds, owns⟩ :=
    D.function_added (f := ⟨name, params, body, f.scope⟩) ready.holds ready.sees allowed
  apply Agree.bind (P := D.owns) (.change holds (Store.extends_addFunction _) owns)
  intro value t after owned
  cases name with
  | none => exact .pure after.holds owned
  | some name =>
    have ready := ready.after after
    apply Agree.bind (ready.act (Discipline.declare ready.holds ready.runs owned))
    intro _ u after _
    exact .pure after.holds (D.owns_plain rfl)

end Ready

namespace Coupled

variable (coupled : C.Coupled first second)

include coupled

theorem values {nodes : List Node} {found : Array Value} (ready : C.Ready f τ s)
    (owned : D.ownsAll s.world.store found) :
    C.Agrees f τ s D.ownsAll (first.values f nodes found s)
      (second.values (f.withTrace τ) nodes found s) := by
  induction nodes generalizing found s with
  | nil => exact .pure ready.holds owned
  | cons node rest ih =>
    apply Agree.bind (coupled node ready)
    intro value t after ownsValue
    refine ih (ready.after after) fun v inside => ?_
    rcases Array.mem_push.mp inside with inside | rfl
    · exact D.owns_mono after.grows (owned v inside)
    · exact ownsValue

theorem condition {node : Node} (ready : C.Ready f τ s) :
    C.Agrees f τ s Discipline.anything (first.condition f node s)
      (second.condition (f.withTrace τ) node s) := by
  apply Agree.bind (coupled node ready)
  intro value t after _
  exact (ready.after after).act
    (Discipline.readExcept after.holds Store.refuses_truth fun _ _ => trivial)

theorem binary {left right : Node} {operator : BinaryOperator} {span : Span}
    (ready : C.Ready f τ s) :
    C.Agrees f τ s D.owns (first.binary f left operator right span s)
      (second.binary (f.withTrace τ) left operator right span s) := by
  apply Agree.bind (coupled left ready)
  intro a t after ownsLeft
  have ready := ready.after after
  apply Agree.bind (coupled right ready)
  intro b u after ownsRight
  exact (ready.after after).act
    (Discipline.binary after.holds (D.owns_mono after.grows ownsLeft) ownsRight)

theorem unary {operator : UnaryOperator} {operand : Node} {span : Span} (ready : C.Ready f τ s) :
    C.Agrees f τ s D.owns (first.unary f operator operand span s)
      (second.unary (f.withTrace τ) operator operand span s) := by
  apply Agree.bind (coupled operand ready)
  intro value t after _
  exact (ready.after after).act (Discipline.unary after.holds)

theorem declare {name : String} {constant : Bool} {value : Node} {span : Span}
    (ready : C.Ready f τ s) :
    C.Agrees f τ s D.owns (first.declare f name constant value span s)
      (second.declare (f.withTrace τ) name constant value span s) := by
  apply Agree.bind (coupled value ready)
  intro v t after owned
  have ready := ready.after after
  apply Agree.bind (ready.act (Discipline.declare ready.holds ready.runs owned))
  intro _ u after _
  exact .pure after.holds (D.owns_mono after.grows owned)

theorem assign {name : String} {compound : Option BinaryOperator} {value : Node} {span : Span}
    (ready : C.Ready f τ s) :
    C.Agrees f τ s D.owns (first.assign f name compound value span s)
      (second.assign (f.withTrace τ) name compound value span s) := by
  -- what is left to do once the new value is known
  have store {v : Value} {t : Session} (ready : C.Ready f τ t) (owned : D.owns t.world.store v) :
      C.Agrees f τ t D.owns
        ((do Eval.ofAct f span (Store.assign f.scope name v); return v : Eval Value) t)
        ((do Eval.ofAct (f.withTrace τ) span (Store.assign f.scope name v); return v :
          Eval Value) t) := by
    apply Agree.bind (ready.act (Discipline.assign ready.holds ready.sees owned))
    intro _ u after _
    exact .pure after.holds (D.owns_mono after.grows owned)
  apply Agree.bind (coupled value ready)
  intro v t after owned
  have ready := ready.after after
  cases compound with
  | none => exact store ready owned
  | some operator =>
    apply Agree.bind ready.access
    intro current u after ownsCurrent
    have ready := ready.after after
    apply Agree.bind (ready.act (Discipline.binary ready.holds ownsCurrent
      (D.owns_mono after.grows owned)))
    intro w r after ownsResult
    exact store (ready.after after) ownsResult

theorem list {items : List Node} (ready : C.Ready f τ s) :
    C.Agrees f τ s D.owns (first.list f items s) (second.list (f.withTrace τ) items s) := by
  apply Agree.bind (coupled.values ready D.ownsAll_empty)
  intro values t after owned
  have ⟨holds, owns⟩ := D.list_added after.holds owned
  exact .change holds (Store.extends_addList _) owns

theorem entries {nodes : List (Node × Node)} {found : Entries} (ready : C.Ready f τ s)
    (owned : D.ownsEntries s.world.store found) :
    C.Agrees f τ s D.ownsEntries (first.entries f nodes found s)
      (second.entries (f.withTrace τ) nodes found s) := by
  induction nodes generalizing found s with
  | nil => exact .pure ready.holds owned
  | cons node rest ih =>
    apply Agree.bind (coupled node.1 ready)
    intro key t after ownsKey
    have ready := ready.after after
    apply Agree.bind (coupled node.2 ready)
    intro value u after' ownsValue
    have ready := ready.after after'
    refine Agree.bind (P := D.ownsEntries) (.read ready.holds
      (Discipline.owns_of_insert (fun entry inside => ?_)
        (D.owns_mono after'.grows ownsKey) ownsValue))
      fun entries r after owned => ih (ready.after after) owned
    have before := owned entry inside
    have grows := after.grows.trans after'.grows
    exact ⟨D.owns_mono grows before.1, D.owns_mono grows before.2⟩

theorem dictionary [D.Lax] {nodes : List (Node × Node)} (ready : C.Ready f τ s) :
    C.Agrees f τ s D.owns (first.dictionary f nodes s)
      (second.dictionary (f.withTrace τ) nodes s) := by
  apply Agree.bind (coupled.entries ready D.ownsEntries_empty)
  intro entries t after owned
  have ⟨holds, owns⟩ := D.dictionary_added after.holds owned (Discipline.Lax.allows _)
  exact .change holds (Store.extends_addDictionary _) owns

theorem getIndex {base index : Node} {span : Span} (ready : C.Ready f τ s) :
    C.Agrees f τ s D.owns (first.getIndex f base index span s)
      (second.getIndex (f.withTrace τ) base index span s) := by
  apply Agree.bind (coupled base ready)
  intro b t after ownsBase
  have ready := ready.after after
  apply Agree.bind (coupled index ready)
  intro i u after _
  exact (ready.after after).act
    (Discipline.getItem after.holds (D.owns_mono after.grows ownsBase))

theorem setIndex [D.Lax] {base index value : Node} {span : Span} (mutates : D.mutates)
    (ready : C.Ready f τ s) :
    C.Agrees f τ s D.owns (first.setIndex f base index value span s)
      (second.setIndex (f.withTrace τ) base index value span s) := by
  apply Agree.bind (coupled base ready)
  intro b t after ownsBase
  have ready := ready.after after
  apply Agree.bind (coupled index ready)
  intro i u after' ownsIndex
  have ready := ready.after after'
  apply Agree.bind (coupled value ready)
  intro v r after'' owned
  have ready := ready.after after''
  apply Agree.bind (ready.act (Discipline.setItem ready.holds
    (D.owns_mono (after'.grows.trans after''.grows) ownsBase)
    (D.owns_mono after''.grows ownsIndex) owned mutates fun _ _ => Discipline.Lax.allows _))
  intro _ u after _
  exact .pure after.holds (D.owns_mono after.grows owned)

theorem member {base : Node} {name : String} {span : Span}
    (permitted : name = "append" → D.mutates) (ready : C.Ready f τ s) :
    C.Agrees f τ s D.owns (first.member f base name span s)
      (second.member (f.withTrace τ) base name span s) := by
  apply Agree.bind (coupled base ready)
  intro b t after owned
  exact (ready.after after).act (Discipline.member after.holds owned permitted)

end Coupled

end BasicScript.Coupling
