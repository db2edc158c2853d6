import BasicScript.Proofs.Evaluate.Run

/-! Signals stay inside of what they may leave. An evaluation that ends on the way out of a function
or loop began inside of one, so no signal comes out of a program, of the body of a module, of the
call of a function or of an import. -/

set_option autoImplicit false

namespace BasicScript

namespace Eval

variable {α : Type}

def StopsAs (allowed : Interrupt → Prop) (body : Eval α) : Prop :=
  ∀ s x t, body s = .error x t → allowed x

def Contained (body : Eval α) : Prop := body.StopsAs fun x => x.isSignal = false

/-- A run that is coupled with another stops as its frame permits. -/
theorem stopsAs_permitted {D : Discipline} {host : Host} {upkeep : Upkeep host} {f : Frame}
    {P : Store → α → Prop} {body second : Eval α}
    (agree : ∀ s, (Coupling.single D upkeep).Agrees f f.trace s P (body s) (second s)) :
    body.StopsAs (·.PermittedIn f) := by
  intro s x t ended
  have agree := agree s
  rw [ended] at agree
  exact Coupling.permitted agree

theorem contained_of_outside {f : Frame} {body : Eval α}
    (permitted : body.StopsAs (·.PermittedIn f)) (outside : f.inFunction = false)
    (apart : f.inLoop = false) : body.Contained := by
  intro s x t ended
  have permitted : x.PermittedIn f := permitted s x t ended
  cases x with
  | exitFunction _ => exact absurd (outside.symm.trans permitted) (by decide)
  | exitLoop _ | nextTurn _ => exact absurd (apart.symm.trans permitted) (by decide)
  | failed _ | exhausted => rfl

theorem mapInterrupt_escaped {frame : Frame} {body : Eval α} (contained : body.Contained) :
    mapInterrupt (·.escaped frame) body = body := by
  funext s
  -- a value passes, and a fault is left as it is
  simp only [mapInterrupt, tryCatch_eq]
  cases ended : body s with
  | ok a t => rfl
  | error x t =>
    show EStateM.Result.error (x.escaped frame) t = .error x t
    rw [x.escaped_eq frame (contained s x t ended)]

end Eval

namespace Coupling

theorem ready_any (host : Host) (f : Frame) (s : Session) :
    (single .any (.any host)).Ready f f.trace s :=
  ⟨trivial, ⟨rfl, trivial⟩, trivial⟩

theorem coupled_any (host : Host) (fuel : Nat) :
    (single .any (.any host)).Coupled (BasicScript.evaluate host fuel)
      (BasicScript.evaluate host fuel) :=
  evaluate (.same fuel) (Discipline.admits_any _)

end Coupling

namespace Evaluator

open Coupling

variable (host : Host) (fuel : Nat) (frame : Frame)

theorem evaluate_permitted (node : Node) :
    (evaluate host fuel node frame).StopsAs (·.PermittedIn frame) :=
  Eval.stopsAs_permitted fun s => coupled_any host fuel node (ready_any host frame s)

theorem values_contained {frame : Frame} (nodes : List Node) (outside : frame.inFunction = false)
    (apart : frame.inLoop = false) : (values (evaluate host fuel) frame nodes #[]).Contained := by
  refine Eval.contained_of_outside ?_ outside apart
  exact Eval.stopsAs_permitted fun s =>
    (coupled_any host fuel).values (ready_any host frame s) Discipline.ownsAll_empty

theorem bindParameters_root (place scope : Handle) (span : Span)
    (bindings : List (String × Value)) : bindParameters frame scope span bindings =
      bindParameters (.root ⟨frame.trace, place⟩) scope span bindings := by
  induction bindings with
  | nil => rfl
  | cons binding rest ih => simp only [bindParameters, ih]; rfl

/-- A call may stand in a loop or function and in any scope, but it does not see that. -/
theorem callFunction_root (place : Handle) (e : Evaluator) (limit : Nat) (f : Function)
    (args : List Value) (span : Span) : callFunction e frame limit f args span =
      callFunction e (.root ⟨frame.trace, place⟩) limit f args span := by
  simp only [callFunction, bindParameters_root frame place]
  rfl

theorem loadFile_root (place : Handle) (e : Evaluator) (name : String) (path : Path)
    (span : Span) : loadFile e frame host name path span =
      loadFile e (.root ⟨frame.trace, place⟩) host name path span := rfl

theorem callFunction_contained (f : Function) (args : List Value) (span : Span) :
    (callFunction (evaluate host fuel) frame host.config.maxCallDepth f args span).Contained := by
  rw [callFunction_root frame frame.scope]
  refine Eval.contained_of_outside (f := .root frame.toContext) ?_ rfl rfl
  exact Eval.stopsAs_permitted fun s =>
    (coupled_any host fuel).callFunction (ready_any host _ s) trivial fun _ _ => trivial

theorem bindExports_root (span : Span) (exports : List Export) :
    bindExports frame span exports = bindExports (.root frame.toContext) span exports := by
  induction exports with
  | nil => rfl
  | cons e rest ih => simp only [bindExports, ih]; rfl

theorem importModule_root (name : String) (nameSpan : Span) (binding : Option ImportAlias)
    (span : Span) : importModule (evaluate host fuel) frame host (.string name nameSpan) binding span =
      importModule (evaluate host fuel) (.root frame.toContext) host (.string name nameSpan) binding
        span := by
  have same : evaluate host fuel (.string name nameSpan) frame =
      evaluate host fuel (.string name nameSpan) (.root frame.toContext) := by
    cases fuel <;> rfl
  simp only [importModule, bindExports_root frame, same]
  rfl

theorem importModule_contained (name : String) (nameSpan : Span) (binding : Option ImportAlias)
    (span : Span) :
    (importModule (evaluate host fuel) frame host (.string name nameSpan) binding span).Contained := by
  rw [importModule_root]
  refine Eval.contained_of_outside (f := .root frame.toContext) ?_ rfl rfl
  exact Eval.stopsAs_permitted fun s =>
    (coupled_any host fuel).importModule (Discipline.admits_any _) (ready_any host _ s)

/-- A list of statements outside of functions and loops has no use for its last rule. -/
theorem statements_outside {frame : Frame} (nodes : List Node)
    (outside : frame.inFunction = false) (apart : frame.inLoop = false) :
    statements (evaluate host fuel) frame nodes =
      Array.toList <$> values (evaluate host fuel) frame nodes #[] := by
  refine Eval.mapInterrupt_escaped fun s x t ended => ?_
  have contained := values_contained host fuel nodes outside apart s
  simp only [bind, EStateM.bind] at ended
  generalize values (evaluate host fuel) frame nodes #[] s = outcome at ended contained
  cases outcome with
  | ok found u => cases ended
  | error y u =>
    cases ended
    exact contained x t rfl

/-- Whatever leaves a function or loop is on its way in a frame inside of one. So it never gets out
of the statements of a program or of the body of a module, where it would be turned into a fault,
and no call of a function and no import of a name ends in it. -/
theorem signals_stay_inside :
    (∀ node frame, (evaluate host fuel node frame).StopsAs (·.PermittedIn frame)) ∧
    (∀ nodes context,
      (values (evaluate host fuel) (.root context) nodes #[]).Contained ∧
      Eval.interpret host fuel nodes context =
        Array.toList <$> values (evaluate host fuel) (.root context) nodes #[]) ∧
    (∀ nodes frame name scope,
      let inner := Frame.enter frame ("<module " ++ name ++ ">") scope false
      (values (evaluate host fuel) inner nodes #[]).Contained ∧
      statements (evaluate host fuel) inner nodes =
        Array.toList <$> values (evaluate host fuel) inner nodes #[]) ∧
    (∀ frame f args span,
      (callFunction (evaluate host fuel) frame host.config.maxCallDepth f args span).Contained) ∧
    (∀ frame name nameSpan binding span,
      (importModule (evaluate host fuel) frame host (.string name nameSpan) binding
        span).Contained) := by
  refine ⟨fun node frame => evaluate_permitted host fuel frame node, fun nodes context => ?_,
    fun nodes frame name scope => ?_, fun frame => callFunction_contained host fuel frame,
    fun frame => importModule_contained host fuel frame⟩
  · exact ⟨values_contained host fuel nodes rfl rfl, statements_outside host fuel nodes rfl rfl⟩
  · exact ⟨values_contained host fuel nodes rfl rfl, statements_outside host fuel nodes rfl rfl⟩

/-- A function is left from the condition of a loop, and a loop from an argument of a call. -/
theorem signals_stay_inside_nested :
    let s : Session := { world := { store := ({} : Store).addRoot.2 } }
    let inside : Frame := ⟨⟨["f()", "main"], 0⟩, true, false⟩
    let turn : Frame := ⟨⟨["main"], 0⟩, false, true⟩
    let left : Node :=
      .whileLoop (.exitFunction (some (.string "out" default)) default) [.exitLoop default] default
    let ended : Node := .call (.access "print" default)
      [.ifElse [(.access "TRUE" default, [.exitLoop default])] none default] default
    evaluate default 3 left inside s = .error (.exitFunction (.string "out")) s ∧
      inside.inFunction = true ∧
      evaluate default 4 ended turn s = .error (.exitLoop default) s ∧ turn.inLoop = true := by
  intro s inside turn left ended
  have first : evaluate default 3 left inside s = .error (.exitFunction (.string "out")) s := rfl
  have second : evaluate default 4 ended turn s = .error (.exitLoop default) s := rfl
  exact ⟨first, (signals_stay_inside default 3).1 left inside s _ _ first,
    second, (signals_stay_inside default 4).1 ended turn s _ _ second⟩

end Evaluator

end BasicScript
