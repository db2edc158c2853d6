import BasicScript.Proofs.Evaluate.Signal
import BasicScript.Proofs.Store.Scoping

/-! The scopes of a run. Whatever is evaluated, and however that ends, the slots of all scopes stay
in their places, constants keep their values, and no scope but that of the evaluation gets a name.
-/

set_option autoImplicit false

namespace BasicScript.Evaluator

variable {host : Host} {fuel : Nat} {s : Session} {frame : Frame} {may : Handle → Prop}

/-- What is after one turn of a loop is after its body, which runs in a new scope. -/
theorem final_turn (e : Evaluator) (frame : Frame) (body : List Node) (s : Session) :
    Eval.final (turn e frame body) s =
      Eval.final (block e (frame.iteration s.world.store.scopes.size) body)
        ⟨⟨(s.world.store.addScope (some frame.scope)).2, s.world.console⟩, s.importStack,
          s.callDepth⟩ := by
  rw [turn_eq]
  simp only [Eval.final, bind, EStateM.bind, Eval.change, Store.addScope]
  generalize block e _ body _ = outcome
  cases outcome with
  | ok _ t => rfl
  | error x t => cases x <;> rfl

abbrev scoping (host : Host) (began : Store) (may : Handle → Prop) :=
  Coupling.single (.scoping began may) (.any host)

theorem ready_scoping (runs : may frame.scope ∨ s.world.store.scopes.size ≤ frame.scope) :
    (scoping host s.world.store may).Ready frame frame.trace s :=
  ⟨.refl _, ⟨rfl, trivial⟩, runs⟩

/-- In a place that is not there yet no scope of the store gets a name. -/
theorem ready_elsewhere :
    (scoping host s.world.store fun _ => False).Ready
      (.root ⟨frame.trace, s.world.store.scopes.size⟩) frame.trace s :=
  ready_scoping (.inr (Nat.le_refl _))

theorem admits_scoping (began : Store) (may : Handle → Prop) (natives : Registry) :
    (Discipline.scoping began may).Admits natives :=
  fun _ _ _ _ action _ _ => Discipline.within_anything action

theorem coupled_scoping (host : Host) (fuel : Nat) (began : Store) (may : Handle → Prop) :
    (scoping host began may).Coupled (evaluate host fuel) (evaluate host fuel) :=
  Coupling.evaluate (.same fuel) (admits_scoping began may host.natives)

theorem evaluate_becomes (node : Node) :
    s.world.store.Becomes (· = frame.scope)
      (Eval.final (evaluate host fuel node frame) s).world.store := by
  have ready : (scoping host s.world.store (· = frame.scope)).Ready frame frame.trace s :=
    ready_scoping (.inl rfl)
  exact (coupled_scoping host fuel _ _ node ready).final.holds

theorem turn_becomes (body : List Node) :
    s.world.store.Becomes (fun _ => False)
      (Eval.final (turn (evaluate host fuel) frame body) s).world.store := by
  rw [final_turn]
  let D := Discipline.scoping s.world.store fun _ => False
  have ⟨holds, runs⟩ : D.holds (s.world.store.addScope (some frame.scope)).2 ∧
      D.runs (s.world.store.addScope (some frame.scope)).2 s.world.store.scopes.size :=
    D.scope_added (.refl _) trivial
  have ready : (scoping host s.world.store fun _ => False).Ready
      (frame.iteration s.world.store.scopes.size) frame.trace
      ⟨⟨(s.world.store.addScope (some frame.scope)).2, s.world.console⟩, s.importStack,
        s.callDepth⟩ := ⟨holds, ⟨rfl, trivial⟩, runs⟩
  exact ((coupled_scoping host fuel _ _).block ready).final.holds

theorem callFunction_becomes (f : Function) (args : List Value) (span : Span) :
    s.world.store.Becomes (fun _ => False) (Eval.final
      (callFunction (evaluate host fuel) frame host.config.maxCallDepth f args span)
        s).world.store := by
  -- the call is moved to a scope that is not there, so that none of those that are may get a slot
  rw [callFunction_root frame s.world.store.scopes.size]
  have coupled := coupled_scoping host fuel s.world.store fun _ => False
  exact (coupled.callFunction ready_elsewhere trivial fun _ _ => trivial).final.holds

theorem loadFile_becomes (name : String) (path : Path) (span : Span) :
    s.world.store.Becomes (fun _ => False) (Eval.final
      (loadFile (evaluate host fuel) frame host name path span) s).world.store := by
  rw [loadFile_root host frame s.world.store.scopes.size]
  have coupled := coupled_scoping host fuel s.world.store fun _ => False
  exact (coupled.loadFile ready_elsewhere trivial).final.holds

/-- What becomes of the scopes of a store: each slot is where it was, with its name, constness and
origin, constants have their values, and only the scope of the evaluation has got slots. Whatever is
declared in a turn of a loop, in the call of a function or in a file that is imported shows up in no
scope that was there before. A program or file as a whole is no different. -/
theorem scopes_become (host : Host) (fuel : Nat) (s : Session) :
    (∀ node frame, s.world.store.Becomes (· = frame.scope)
      (Eval.final (evaluate host fuel node frame) s).world.store) ∧
    (∀ frame body, s.world.store.Becomes (fun _ => False)
      (Eval.final (turn (evaluate host fuel) frame body) s).world.store) ∧
    (∀ frame f args span, s.world.store.Becomes (fun _ => False) (Eval.final
      (callFunction (evaluate host fuel) frame host.config.maxCallDepth f args span)
        s).world.store) ∧
    (∀ frame name path span, s.world.store.Becomes (fun _ => False) (Eval.final
      (loadFile (evaluate host fuel) frame host name path span) s).world.store) ∧
    (∀ nodes context, s.world.store.Becomes (· = context.scope)
      (Eval.final (Eval.interpret host fuel nodes context) s).world.store) ∧
    (∀ path nodes, s.world.store.Becomes (fun _ => False)
      (Eval.final (Eval.runFile host fuel path nodes) s).world.store) := by
  refine ⟨fun node frame => evaluate_becomes node,
    fun frame body => turn_becomes body,
    fun frame f args span => callFunction_becomes f args span,
    fun frame name path span => loadFile_becomes name path span,
    fun nodes context => ?_, fun path nodes => ?_⟩
  · let D : Discipline := .scoping s.world.store (· = context.scope)
    have holds : D.holds s.world.store := Store.Becomes.refl _
    have runs : D.runs s.world.store context.scope := Or.inl rfl
    have agree := Eval.interpret_agree fuel nodes context holds runs
      (admits_scoping _ _ host.natives)
    exact agree.final.holds
  · let D : Discipline := .scoping s.world.store fun _ => False
    have holds : D.holds s.world.store := Store.Becomes.refl _
    have agree := Eval.runFile_agree fuel path nodes holds (admits_scoping _ _ host.natives)
    exact agree.final.holds

/-- A loop assigns to a variable and declares a name in its turn, in a program where there already
are the variable and a constant. -/
theorem scopes_become_assigned :
    let s := Eval.final (Eval.runText default 3 "main" "LET x = 1\nCONST k = 'low'") {}
    let nodes : List Node := [
      .forLoop "i" default (.list [.number (.int 7) default] default)
        [.assign "x" none (.access "i" default) default,
          .declare "y" false (.access "k" default) default] default,
      .declare "z" true (.access "k" default) default]
    let run := Eval.interpret default 4 nodes ⟨["main"], 0⟩
    s.world.store.Becomes (· = 0) (run.final s).world.store ∧
      (s.world.store.scope 0).slot? "x" = some ⟨"x", .number (.int 1), false, false⟩ ∧
      (s.world.store.scope 0).slot? "k" = some ⟨"k", .string "low", true, false⟩ ∧
      ((run.final s).world.store.scope 0).slot? "x" = some ⟨"x", .number (.int 7), false, false⟩ ∧
      ((run.final s).world.store.scope 0).slot? "k" = some ⟨"k", .string "low", true, false⟩ ∧
      ((run.final s).world.store.scope 0).slot? "z" = some ⟨"z", .string "low", true, false⟩ ∧
      (run.final s).world.store.declares 0 "y" = false := by
  intro s nodes run
  have becomes (s : Session) : s.world.store.Becomes (· = 0) (run.final s).world.store :=
    (scopes_become default 4 s).2.2.2.2.1 nodes ⟨["main"], 0⟩
  refine ⟨becomes s, ?_, ?_, ?_, ?_, ?_, ?_⟩ <;> decide +kernel

end BasicScript.Evaluator
