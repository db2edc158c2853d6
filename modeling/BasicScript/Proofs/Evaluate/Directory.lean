import BasicScript.Proofs.Evaluate.Bookkeeping

/-! The directory that an import starts from. It is that of the file whose statements are running,
and a call makes no other file run. As long as nothing but functions has been entered since, imports
start from beside that file, so a function imports from beside the file that calls it. -/

set_option autoImplicit false

namespace BasicScript

def Frame.EntersCalls (frame : Frame) (trace : List String) : Prop :=
  ∃ names : List String, frame.trace = names.map (· ++ "()") ++ trace

theorem moduleEntry_ne_call (name function : String) : moduleEntry name ≠ function ++ "()" := by
  have module : (moduleEntry name).toList.getLast? = some '>' := by
    rw [moduleEntry, String.toList_append, List.getLast?_append]
    rfl
  have call : (function ++ "()").toList.getLast? = some ')' := by simp
  intro same
  rw [same, call] at module
  exact absurd module (by decide)

namespace Frame.EntersCalls

variable {frame : Frame} {trace : List String} {name : String} {scope : Handle} {inFunction : Bool}

theorem of_enter (below : trace <:+ frame.trace)
    (calls : (frame.enter name scope inFunction).EntersCalls trace) :
    (∃ function, name = function ++ "()") ∧ frame.EntersCalls trace := by
  obtain ⟨names, whole⟩ := calls
  cases names with
  | nil =>
    have longer := congrArg List.length whole
    have := below.length_le
    simp only [Frame.enter, List.map_nil, List.nil_append, List.length_cons] at longer
    omega
  | cons function names =>
    obtain ⟨last, rest⟩ := List.cons.inj whole
    exact ⟨⟨function, last⟩, names, rest⟩

end Frame.EntersCalls

/-- The file at `path` is the innermost one that is active, if nothing but functions has been
entered on the way from this trace to that of the frame. -/
def Upkeep.innermost (host : Host) (trace : List String) (path : Path) : Upkeep host where
  keeps files _ frame :=
    trace <:+ frame.trace ∧ (frame.EntersCalls trace → files.head? = some path)
  turn _ keeps := keeps
  call name _ := fun ⟨below, innermost⟩ _ =>
    ⟨below.trans (List.suffix_cons name _), fun calls => innermost (calls.of_enter below).2⟩
  module name _ := by
    rintro ⟨below, _⟩ _
    refine ⟨below.trans (List.suffix_cons _ _), fun calls => ?_⟩
    obtain ⟨⟨function, same⟩, _⟩ := calls.of_enter below
    exact absurd same (moduleEntry_ne_call name function)

namespace Evaluator

/-- An import would start from the directory of the file at `path`, if nothing but functions has
been entered on the way from this trace to that of the frame. -/
def StartsBeside (trace : List String) (path : Path) (frame : Frame) (now : Session) : Prop :=
  frame.EntersCalls trace → scriptDirectory? now = .ok path.parent? now

noncomputable instance (trace : List String) (path : Path) (frame : Frame) (now : Session) :
    Decidable (StartsBeside trace path frame now) := Classical.propDecidable _

open Eval (within within_congr newContext)

variable (host : Host) (fuel : Nat) (alarm : Evaluator)

theorem statements_startBeside {path : Path} {context : Context} (nodes : List Node) {s : Session}
    (innermost : s.importStack.head? = some path) :
    statements (evaluateWatched (StartsBeside context.trace path) alarm host fuel) (.root context)
      nodes s = statements (evaluate host fuel) (.root context) nodes s := by
  let upkeep := Upkeep.innermost host context.trace path
  have permitted (frame : Frame) (now : Session)
      (keeps : upkeep.keeps now.importStack now.callDepth frame) :
      StartsBeside context.trace path frame now := by
    intro calls
    show EStateM.Result.ok (now.importStack.head?.bind Path.parent?) now = _
    rw [keeps.2 calls]
    rfl
  have coupled : (Coupling.single .any upkeep).Coupled (evaluate host fuel)
      (evaluateWatched (StartsBeside context.trace path) alarm host fuel) :=
    coupled_watched alarm (Discipline.admits_any _) permitted fuel
  have ready : (Coupling.single .any upkeep).Ready (.root context) context.trace s :=
    ⟨trivial, ⟨rfl, List.suffix_rfl, fun _ => innermost⟩, trivial⟩
  exact ((coupled.program ready).same fun x y => id).symm

theorem within_startBeside (path : Path) (context : Context) (nodes : List Node) :
    within path (statements (evaluateWatched (StartsBeside context.trace path) alarm host fuel)
      (.root context) nodes) = within path (statements (evaluate host fuel) (.root context) nodes) :=
  funext fun _ => within_congr (statements_startBeside host fuel alarm nodes rfl)

/-- Imports start from the directory of the file that is running, be it a program or a module: at
each step that is reached by entering nothing but functions, whichever files these come from.
Whatever would be done at a step where this is not so is never done. -/
theorem imports_start_beside :
    (∀ path nodes,
      (do
        let context ← newContext path.text
        within (host.files.canonical path) (statements (evaluateWatched
          (StartsBeside context.trace (host.files.canonical path)) alarm host fuel) (.root context)
            nodes)) =
        Eval.runFile host fuel path nodes) ∧
    ∀ frame name path canonical text span,
      runModule (evaluateWatched (StartsBeside (moduleEntry name :: frame.trace) canonical) alarm host
        fuel) frame name path canonical text span =
        runModule (evaluate host fuel) frame name path canonical text span := by
  refine ⟨fun path nodes => ?_, fun frame name path canonical text span => ?_⟩
  · exact bind_congr fun context => within_startBeside host fuel alarm _ context nodes
  · have body (scope : Handle) (nodes : List Node) :=
      within_startBeside host fuel alarm canonical ⟨moduleEntry name :: frame.trace, scope⟩ nodes
    refine congrArg (Eval.mapInterrupt _) (bind_congr fun nodes => bind_congr fun scope => ?_)
    exact congrArg (· >>= _) (body scope nodes)

/-- A function of another file, which has a module of this name beside it as well. -/
example :
    let host : Host :=
      { config := { root := ⟨"/"⟩ }
        files := ⟨[], [
          (["lib", "tool.vlb"], .text "FUNCTION load()\nIMPORT 'part'\nRETURN part.origin\nEND"),
          (["lib", "part.vlb"], .text "LET origin = 'lib'"),
          (["part.vlb"], .text "LET origin = 'root'")]⟩ }
    let run : Eval (List Value) := do
      let nodes ← Eval.parse "/main.vlb" "IMPORT 'lib/tool'\ntool.load()"
      Eval.runFile host 9 ⟨"/main.vlb"⟩ nodes
    run.value? {} = some [.null, .string "root"] := by
  decide +kernel

end Evaluator

end BasicScript
