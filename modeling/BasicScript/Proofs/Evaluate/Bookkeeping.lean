import BasicScript.Proofs.Evaluate.Run

/-! Bookkeeping of a session: the active files and the number of active calls. Both are after a run
what they were before it, however it ended. At every step in between they stay within their bounds,
and together they are as many as the names in the trace. A step that goes beyond would be seen by a
watched evaluator, which looks around before each step; it never sees one. -/

set_option autoImplicit false

namespace BasicScript

theorem Path.same_comm (p q : Path) : p.same q = q.same p := Bool.beq_comm

/-- The calls and files that are active are within bounds, and those that have become active since
the session `began` stand in the trace in front of that of the context. -/
def Balanced (limit : Nat) (context : Context) (began : Session) (files : List Path) (calls : Nat)
    (frame : Frame) : Prop :=
  calls ≤ limit ∧ files.Pairwise (fun p q => p.same q = false) ∧ began.callDepth ≤ calls ∧
    began.importStack <:+ files ∧
      frame.trace.length = context.trace.length + (calls - began.callDepth) +
        (files.length - began.importStack.length)

instance (limit : Nat) (context : Context) (began : Session) (files : List Path) (calls : Nat)
    (frame : Frame) : Decidable (Balanced limit context began files calls frame) :=
  inferInstanceAs (Decidable (_ ∧ _ ∧ _ ∧ _ ∧ _))

abbrev BalancedAt (host : Host) (context : Context) (began : Session) (frame : Frame)
    (now : Session) : Prop :=
  Balanced host.config.maxCallDepth context began now.importStack now.callDepth frame

namespace Balanced

variable {limit : Nat} {context : Context} {began : Session} {files : List Path} {calls : Nat}
  {frame : Frame}

theorem root (bounded : began.callDepth ≤ limit)
    (distinct : began.importStack.Pairwise fun p q => p.same q = false) :
    Balanced limit context began began.importStack began.callDepth (.root context) :=
  ⟨bounded, distinct, Nat.le_refl _, List.suffix_rfl, by simp [Frame.root]⟩

theorem turn (balanced : Balanced limit context began files calls frame) (scope : Handle) :
    Balanced limit context began files calls (frame.iteration scope) := balanced

theorem call (balanced : Balanced limit context began files calls frame) (below : calls < limit)
    (name : String) (scope : Handle) :
    Balanced limit context began files (calls + 1) (frame.enter name scope true) := by
  obtain ⟨_, distinct, more, active, whole⟩ := balanced
  refine ⟨below, distinct, Nat.le_succ_of_le more, active, ?_⟩
  simp only [Frame.enter, List.length_cons, whole]
  omega

theorem module {path : Path} (balanced : Balanced limit context began files calls frame)
    (absent : ∀ p ∈ files, p.same path = false) (name : String) (scope : Handle) :
    Balanced limit context began (path :: files) calls (frame.enter name scope false) := by
  obtain ⟨bounded, distinct, more, active, whole⟩ := balanced
  have shorter := active.length_le
  refine ⟨bounded, ?_, more, active.trans (List.suffix_cons _ _), ?_⟩
  -- the circular check has found the file on no place of the stack
  · refine List.pairwise_cons.mpr ⟨fun p inside => ?_, distinct⟩
    rw [Path.same_comm]
    exact absent p inside
  · simp only [Frame.enter, List.length_cons, whole]
    omega

def upkeep (host : Host) (context : Context) (began : Session) : Upkeep host where
  keeps := Balanced host.config.maxCallDepth context began
  turn scope balanced := balanced.turn scope
  call _ scope balanced below := balanced.call below _ scope
  module _ scope balanced absent := balanced.module absent _ scope

end Balanced

namespace Evaluator

variable (permits : Frame → Session → Prop) [∀ frame s, Decidable (permits frame s)]
  (alarm : Evaluator)

/-- Look around before each node, and go on with `alarm` where this is not permitted. -/
def watched (evaluate : Evaluator) : Evaluator := fun node frame s =>
  if permits frame s then evaluate node frame s else alarm node frame s

def evaluateWatched (host : Host) : Nat → Evaluator
  | 0 => watched permits alarm fun _ _ => throw .exhausted
  | fuel + 1 => watched permits alarm (step host fuel (evaluateWatched host fuel))

variable {permits}

/-- Where it is permitted to be, a watched evaluator does the same. -/
theorem watched_coupled {D : Discipline} {host : Host} {limit : Nat} {C : Coupling D host limit}
    {first second : Evaluator} (coupled : C.Coupled first second)
    (permitted : ∀ f τ s, C.Ready f τ s → permits (f.withTrace τ) s) :
    C.Coupled first (watched permits alarm second) := by
  intro node f τ s ready
  -- wherever the runs are together, looking around finds nothing
  simp only [watched, permitted f τ s ready, ↓reduceIte]
  exact coupled node ready

/-- What is permitted wherever a run may be raises no alarm. -/
theorem coupled_watched {D : Discipline} [D.Free] [D.Lax] {host : Host} {upkeep : Upkeep host}
    (admits : D.Admits host.natives)
    (permitted : ∀ f s, upkeep.keeps s.importStack s.callDepth f → permits f s) (fuel : Nat) :
    (Coupling.single D upkeep).Coupled (evaluate host fuel)
      (evaluateWatched permits alarm host fuel) := by
  have permitted (f : Frame) (τ : List String) (s : Session)
      (ready : (Coupling.single D upkeep).Ready f τ s) : permits (f.withTrace τ) s := by
    obtain ⟨rfl, keeps⟩ := ready.frames
    exact permitted f s keeps
  induction fuel with
  | zero =>
    refine watched_coupled alarm (fun node f τ s ready => ?_) permitted
    exact .throw ready.holds ⟨rfl, trivial⟩ trivial
  | succ fuel ih => exact watched_coupled alarm (ih.step (.same fuel) admits) permitted

end Evaluator

namespace Eval

open Evaluator

variable (host : Host) (fuel : Nat) (alarm : Evaluator) (context : Context)

def interpretWatched (nodes : List Node) : Eval (List Value) := fun s =>
  statements (evaluateWatched (BalancedAt host context s) alarm host fuel) (.root context) nodes s

theorem interpretWatched_eq (nodes : List Node) {s : Session}
    (bounded : s.callDepth ≤ host.config.maxCallDepth)
    (distinct : s.importStack.Pairwise fun p q => p.same q = false) :
    interpretWatched host fuel alarm context nodes s = interpret host fuel nodes context s := by
  have permitted (f : Frame) (t : Session) :
      (Balanced.upkeep host context s).keeps t.importStack t.callDepth f →
        BalancedAt host context s f t := id
  have coupled : (Coupling.single .any (Balanced.upkeep host context s)).Coupled
      (evaluate host fuel) (evaluateWatched (BalancedAt host context s) alarm host fuel) :=
    coupled_watched alarm (Discipline.admits_any _) permitted fuel
  have ready : (Coupling.single .any (Balanced.upkeep host context s)).Ready (.root context)
      context.trace s :=
    ⟨trivial, ⟨rfl, Balanced.root bounded distinct⟩, trivial⟩
  exact ((coupled.program ready).same fun x y => id).symm

theorem within_congr {α : Type} {path : Path} {m n : Eval α} {s : Session}
    (same : m ⟨s.world, path :: s.importStack, s.callDepth⟩ =
      n ⟨s.world, path :: s.importStack, s.callDepth⟩) : within path m s = within path n s := by
  simp only [within, same]

/-- However a program or file ends, as many calls and files are active as before. While it runs,
no more calls are active than the limit allows, no file twice, and the trace of each step is longer
than that of the program by as many names as calls and files have become active: whatever would be
done at a step where this is not so is never done. -/
theorem bookkeeping_balanced :
    (∀ nodes s, (final (interpret host fuel nodes context) s).importStack = s.importStack ∧
      (final (interpret host fuel nodes context) s).callDepth = s.callDepth) ∧
    (∀ path nodes s, (final (runFile host fuel path nodes) s).importStack = s.importStack ∧
      (final (runFile host fuel path nodes) s).callDepth = s.callDepth) ∧
    (∀ nodes s, s.callDepth ≤ host.config.maxCallDepth →
      s.importStack.Pairwise (fun p q => p.same q = false) →
        interpretWatched host fuel alarm context nodes s = interpret host fuel nodes context s) ∧
    (∀ path nodes s, s.callDepth ≤ host.config.maxCallDepth →
      (host.files.canonical path :: s.importStack).Pairwise (fun p q => p.same q = false) →
        (do
          let context ← newContext path.text
          within (host.files.canonical path) (interpretWatched host fuel alarm context nodes)) s =
        runFile host fuel path nodes s) := by
  have admits : Discipline.any.Admits host.natives := Discipline.admits_any _
  refine ⟨fun nodes s => ?_, fun path nodes s => ?_,
    fun nodes s => interpretWatched_eq host fuel alarm context nodes,
    fun path nodes s bounded distinct => ?_⟩
  · have after := (interpret_agree (s := s) fuel nodes context trivial trivial admits).final
    exact ⟨after.importStack, after.callDepth⟩
  · have after := (runFile_agree (s := s) fuel path nodes trivial admits).final
    exact ⟨after.importStack, after.callDepth⟩
  · have made := newContext_eq path.text s
    rw [runFile, bind_of_ok made, bind_of_ok made]
    exact within_congr (interpretWatched_eq host fuel alarm _ nodes bounded distinct)

/-- A file is imported, and a function of it is called and fails, while another file and two calls
are active; the same program as a file of its own. -/
theorem bookkeeping_balanced_active :
    let host : Host := { config := { root := ⟨"/"⟩ }, files := ⟨[],
      [(["m.vlb"], .text "FUNCTION f() RETURN 1 / 0 END")]⟩ }
    let s : Session :=
      { world := { store := ({} : Store).addRoot.2 }, importStack := [⟨"/main.vlb"⟩], callDepth := 2 }
    let nodes : List Node := [.importModule (.string "m" default) none default,
      .call (.member (.access "m" default) "f" default) [] default]
    let alarm : Evaluator := fun _ _ => throw .exhausted
    ((interpret host 5 nodes ⟨["main"], 0⟩).failure? s).map Diagnostic.trace = some ["f()", "main"] ∧
      (final (interpret host 5 nodes ⟨["main"], 0⟩) s).importStack = s.importStack ∧
      (final (interpret host 5 nodes ⟨["main"], 0⟩) s).callDepth = 2 ∧
      interpretWatched host 5 alarm ⟨["main"], 0⟩ nodes s = interpret host 5 nodes ⟨["main"], 0⟩ s ∧
      ((runFile host 5 ⟨"/n.vlb"⟩ nodes).failure? s).map Diagnostic.trace =
        some ["f()", "/n.vlb"] ∧
      (do
        let context ← newContext "/n.vlb"
        within (host.files.canonical ⟨"/n.vlb"⟩) (interpretWatched host 5 alarm context nodes)) s =
          runFile host 5 ⟨"/n.vlb"⟩ nodes s := by
  intro host s nodes alarm
  have bounded : s.callDepth ≤ host.config.maxCallDepth := by decide
  have distinct : s.importStack.Pairwise fun p q => p.same q = false := by decide +kernel
  have apart : (host.files.canonical ⟨"/n.vlb"⟩ :: s.importStack).Pairwise
      fun p q => p.same q = false := by
    decide +kernel
  obtain ⟨programs, _, watched, watchedFile⟩ := bookkeeping_balanced host 5 alarm ⟨["main"], 0⟩
  exact ⟨by decide +kernel, (programs nodes s).1, (programs nodes s).2,
    watched nodes s bounded distinct, by decide +kernel, watchedFile ⟨"/n.vlb"⟩ nodes s bounded apart⟩

end Eval

end BasicScript
