import Mathlib
import BasicScript.Proofs.Evaluate.Signal
import BasicScript.Proofs.Evaluate.Tame
import BasicScript.Proofs.Node.Induction

/-! Tame programs end. Calls nest only so deep, and each import makes one more of the finitely many
files active, so by induction on what is left of both all tame nodes halt. A tame program in a new
context therefore ends in values or in a fault, however its functions and its files use each other.
-/

set_option autoImplicit false

namespace BasicScript

/-- How many entries of the tree are not among these files. -/
def FileTree.inactive (t : FileTree) (st : List Path) : Nat :=
  (t.entries.filter fun entry => !st.any (·.same ⟨"/" ++ "/".intercalate entry.1⟩)).length

theorem Path.same_self (p : Path) : p.same p = true := by simp [Path.same]

/-- A file that can be read is an entry of the tree, and its place is its canonical path. -/
theorem FileTree.exists_of_read {t : FileTree} {path : Path} {text : String}
    (found : t.read path = .ok text) :
    ∃ entry ∈ t.entries, entry.2 = .text text ∧
      t.canonical path = ⟨"/" ++ "/".intercalate entry.1⟩ := by
  unfold read content? at found
  cases located : t.locate? path with
  | none => simp [located] at found
  | some steps =>
    cases known : t.entries.find? fun entry => entry.1 == steps with
    | none => simp [located, contentAt, known] at found
    | some entry =>
      have here : entry.1 = steps := by simpa using List.find?_some known
      refine ⟨entry, List.mem_of_find?_eq_some known, ?_, by rw [canonical, located, here]⟩
      cases content : entry.2 with
      | text text' => simpa [located, contentAt, known, content] using found
      | directory | binary => simp [located, contentAt, known, content] at found

/-- Importing a file that is not active leaves fewer that are not. -/
theorem FileTree.inactive_lt {t : FileTree} {st : List Path} {path : Path} {text : String}
    (found : t.read path = .ok text) (absent : ∀ p ∈ st, p.same (t.canonical path) = false) :
    t.inactive (t.canonical path :: st) < t.inactive st := by
  obtain ⟨entry, known, _, place⟩ := exists_of_read found
  have fewer : (t.entries.filter fun entry =>
      !(t.canonical path :: st).any (·.same ⟨"/" ++ "/".intercalate entry.1⟩)).Sublist
        (t.entries.filter fun entry => !st.any (·.same ⟨"/" ++ "/".intercalate entry.1⟩)) := by
    simp only [List.any_cons, Bool.not_or, ← List.filter_filter]
    exact List.filter_sublist
  refine Nat.lt_of_le_of_ne fewer.length_le fun same => ?_
  -- were there as many, the imported file would still be inactive
  have inside : entry ∈ t.entries.filter fun entry =>
      !st.any (·.same ⟨"/" ++ "/".intercalate entry.1⟩) := by
    refine List.mem_filter.mpr ⟨known, ?_⟩
    rw [← place, Bool.not_eq_true', List.any_eq_false]
    exact fun p inside => by simp [absent p inside]
  rw [← fewer.eq_of_length same, List.mem_filter, ← place] at inside
  simp [Path.same_self] at inside

/-- The modules of the host are tame: the native ones are those that are always there, and no file
holds a node that is not. -/
structure Host.Tame (host : Host) : Prop where
  natives : host.natives = Registry.standard
  files {path : Path} {text : String} {nodes : List Node} : host.files.read path = .ok text →
    Node.ofText path.text text = .ok nodes → Node.allTame nodes = true

namespace Node

variable {origin : Store} {host : Host} {st : List Path} {d : Nat}

theorem Halting.of_step {node : Node}
    (halts : ∀ {f : Frame} {s : Session}, f.Steady origin st d s →
      Halts origin (fun m => Evaluator.step host m (evaluate host m) node f) s (Value.There origin)) :
    node.Halting origin (evaluate host) st d := fun _ _ steady => .of_succ (halts steady)

theorem halting_of_tame (modules : host.Tame) (node : Node) (tame : node.tame = true) :
    node.Halting origin (evaluate host) st d := by
  -- on the calls that are left and the files that are not active; within these on the node
  induction left : host.config.maxCallDepth - d + host.files.inactive st using Nat.strongRecOn
    generalizing st d node with
  | _ n ih =>
  have deeper (below : d < host.config.maxCallDepth) (node : Node) (tame : node.tame = true) :
      node.Halting origin (evaluate host) st (d + 1) := ih _ (by omega) node tame rfl
  have further : Halting.ModulesHalt origin host (evaluate host) st d := by
    intro path text nodes found parsed absent node inside
    have fewer := FileTree.inactive_lt found absent
    exact ih _ (left ▸ Nat.add_lt_add_left fewer _) node
      (allTame_iff.mp (modules.files found parsed) node inside) rfl
  clear ih
  induction node using Node.induct with
  | number _ _ | string _ _ => exact .of_step fun steady => .pure steady (.of_plain rfl)
  | binary left operator right _ onLeft onRight =>
    simp only [Node.tame, Bool.and_eq_true] at tame
    exact .of_step (Halting.binary (onLeft tame.1) (onRight tame.2))
  | unary _ operand _ ih => exact .of_step (Halting.unary (ih tame))
  | access _ _ => exact .of_step Halting.access
  | declare _ _ value _ ih => exact .of_step (Halting.declare (ih tame))
  | assign _ _ value _ ih => exact .of_step (Halting.assign (ih tame))
  | list items _ ih =>
    have each := allTame_iff.mp tame
    exact .of_step (Halting.list fun node inside => ih node inside (each node inside))
  | dictionary entries _ ih =>
    have each := allTameEntries_iff.mp tame
    exact .of_step (Halting.dictionary fun entry inside =>
      ⟨(ih entry inside).1 (each entry inside).1, (ih entry inside).2 (each entry inside).2⟩)
  | getIndex base index _ onBase onIndex =>
    simp only [Node.tame, Bool.and_eq_true] at tame
    exact .of_step (Halting.getIndex (onBase tame.1) (onIndex tame.2))
  | setIndex _ _ _ _ _ _ _ => cases tame
  | member base name _ ih =>
    simp only [Node.tame, Bool.and_eq_true, Bool.not_eq_true', beq_eq_false_iff_ne] at tame
    exact .of_step (Halting.member (ih tame.2) tame.1)
  | function _ _ body _ _ => exact .of_step (Halting.function tame)
  | call callee args _ onCallee onArgs =>
    simp only [Node.tame, Bool.and_eq_true] at tame
    have each := allTame_iff.mp tame.2
    exact .of_step (Halting.call (onCallee tame.1)
      (fun node inside => onArgs node inside (each node inside)) deeper)
  | ifElse branches otherwise _ onBranches onOtherwise =>
    simp only [Node.tame, Bool.and_eq_true] at tame
    have each := allTameBranches_iff.mp tame.1
    refine .of_step (Halting.ifElse (fun branch inside => ⟨?_, fun node there => ?_⟩)
      fun body known node there => ?_)
    · exact (onBranches branch inside).1 (each branch inside).1
    · exact (onBranches branch inside).2 node there (allTame_iff.mp (each branch inside).2 node there)
    · subst known
      exact onOtherwise body rfl node there (allTame_iff.mp tame.2 node there)
  | whileLoop _ _ _ _ _ => cases tame
  | forLoop _ _ iterable body _ onIterable onBody =>
    simp only [Node.tame, Bool.and_eq_true] at tame
    have each := allTame_iff.mp tame.2
    exact .of_step (Halting.forLoop (onIterable tame.1) fun node inside =>
      onBody node inside (each node inside))
  | exitFunction value _ ih =>
    refine .of_step (Halting.exitFunction fun node known => ?_)
    subst known
    exact ih node rfl tame
  | exitLoop _ => exact .of_step Halting.exitLoop
  | nextTurn _ => exact .of_step Halting.nextTurn
  | importModule name _ _ ih => exact .of_step (Halting.importModule (ih tame) modules.natives further)
  | range start stop step _ onStart onStop onStep =>
    simp only [Node.tame, Bool.and_eq_true] at tame
    exact .of_step (Halting.range (onStart tame.1.1) (onStop tame.1.2) (onStep tame.2))

end Node

namespace Interrupt

theorem isSignal_escaped (x : Interrupt) (frame : Frame) : (x.escaped frame).isSignal = false := by
  cases x <;> rfl

end Interrupt

namespace Eval

variable {α β : Type} {origin : Store} {host : Host} {st : List Path} {d : Nat} {s : Session}

theorem Contained.bind {m : Eval α} {k : α → Eval β} (first : m.Contained)
    (rest : ∀ a, (k a).Contained) : (m >>= k).Contained := by
  intro s x t ended
  simp only [Bind.bind, EStateM.bind] at ended
  cases begun : m s with
  | ok a u => exact rest a u x t (by simpa [begun] using ended)
  | error y u =>
    obtain ⟨rfl, rfl⟩ : y = x ∧ u = t := by simpa [begun] using ended
    exact first s y u begun

theorem Contained.within {m : Eval α} (contained : m.Contained) (path : Path) :
    (Eval.within path m).Contained := by
  intro s x t ended
  unfold Eval.within at ended
  cases ran : m ⟨s.world, path :: s.importStack, s.callDepth⟩ with
  | ok a u => simp [ran] at ended
  | error y u =>
    simp only [ran] at ended
    cases ended
    exact contained _ x u ran

theorem newContext_contained (name : String) : (newContext name).Contained := by
  intro s x t ended
  rw [newContext_eq] at ended
  cases ended

theorem parse_contained (name text : String) : (parse name text).Contained := by
  intro s x t ended
  unfold parse at ended
  cases found : Node.ofText name text with
  | ok nodes =>
    rw [found] at ended
    cases ended
  | error d =>
    rw [found] at ended
    cases ended
    rfl

theorem mapInterrupt_contained {φ : Interrupt → Interrupt} (plain : ∀ x, (φ x).isSignal = false)
    (body : Eval α) : (mapInterrupt φ body).Contained := by
  intro s x t ended
  rw [mapInterrupt_eq] at ended
  cases ran : body s with
  | ok _ _ =>
    rw [ran] at ended
    cases ended
  | error y u =>
    rw [ran] at ended
    cases ended
    exact plain y

theorem interpret_contained (fuel : Nat) (nodes : List Node) (context : Context) :
    (interpret host fuel nodes context).Contained :=
  mapInterrupt_contained (·.isSignal_escaped _) _

/-- With enough fuel the run has one outcome, values or a fault, and nothing that it has made
contains itself. -/
def Concludes (run : Nat → Eval (List Value)) (s : Session) : Prop :=
  ∃ n t, WellFounded (s.world.store.Inside t.world.store) ∧
    ((∃ values, ∀ m, n ≤ m → run m s = .ok values t) ∨
      ∃ d, ∀ m, n ≤ m → run m s = .error (.failed d) t)

theorem concludes_of_halts {run : Nat → Eval (List Value)}
    (halts : Halts s.world.store run s anyValue) (contained : ∀ m, (run m).Contained) :
    Concludes run s := by
  obtain ⟨n, r, ends, same⟩ := halts
  cases ends with
  | value settles _ => exact ⟨n, _, settles.holds.2.1.nests, .inl ⟨_, same⟩⟩
  | @stop x t settles final _ =>
    refine ⟨n, t, settles.holds.2.1.nests, .inr ?_⟩
    have plain := contained n s x t (same n (Nat.le_refl n))
    cases x with
    | failed d => exact ⟨d, same⟩
    | exhausted => exact absurd rfl final
    | exitFunction _ | exitLoop _ | nextTurn _ => cases plain

theorem steady_root (name : String) (s : Session) :
    (Frame.root ⟨[name], s.world.store.scopes.size⟩).Steady s.world.store s.importStack s.callDepth
      s :=
  ⟨.refl _, .refl _, Nat.le_refl _, rfl, rfl⟩

theorem halts_newContext {f : Frame} (name : String) (steady : f.Steady origin st d s) :
    Halts origin (fun _ => newContext name) s fun _ context => origin.scopes.size ≤ context.scope := by
  apply Halts.bind (Node.Halting.newRoot steady)
  intro scope t settles beyond
  exact .pure (steady.after settles) beyond

theorem halts_interpret {nodes : List Node} {context : Context} (modules : host.Tame)
    (tame : Node.allTame nodes = true) (steady : (Frame.root context).Steady origin st d s) :
    Halts origin (fun m => interpret host m nodes context) s anyValue :=
  Node.Halting.statements (fun node inside =>
    Node.halting_of_tame modules node (Node.allTame_iff.mp tame node inside)) steady

/-- A tame program that runs in a new context concludes, whatever the session has seen before and
however deep calls may nest. So do tame texts and the files of tame programs. -/
theorem tame_concludes (modules : host.Tame) (s : Session) :
    (∀ name nodes, Node.allTame nodes = true →
      Concludes (fun m => do interpret host m nodes (← newContext name)) s) ∧
    (∀ name text, (∀ nodes, Node.ofText name text = .ok nodes → Node.allTame nodes = true) →
      Concludes (fun m => runText host m name text) s) ∧
    (∀ path nodes, Node.allTame nodes = true → Concludes (fun m => runFile host m path nodes) s) := by
  refine ⟨fun name nodes tame => ?_, fun name text tame => ?_, fun path nodes tame => ?_⟩
  · refine concludes_of_halts ?_ fun m => (newContext_contained name).bind (interpret_contained m nodes)
    have steady := steady_root name s
    apply Halts.bind (halts_newContext name steady)
    intro context t settles beyond
    exact halts_interpret modules tame { steady.after settles with beyond }
  · refine concludes_of_halts ?_ fun m => (parse_contained name text).bind fun nodes =>
      (newContext_contained name).bind (interpret_contained m nodes)
    have steady := steady_root name s
    apply Halts.bind (P := fun _ nodes => Node.allTame nodes = true) (m := fun _ => parse name text)
    · unfold parse
      cases found : Node.ofText name text with
      | ok nodes => exact .pure steady (tame nodes found)
      | error _ => exact .throw steady Interrupt.final_failed trivial
    intro nodes t settles tame
    have steady := steady.after settles
    apply Halts.bind (halts_newContext name steady)
    intro context u settles beyond
    exact halts_interpret modules tame { steady.after settles with beyond }
  · refine concludes_of_halts ?_ fun m => (newContext_contained path.text).bind fun context =>
      (interpret_contained m nodes context).within _
    have steady := steady_root path.text s
    apply Halts.bind (halts_newContext path.text steady)
    intro context t settles beyond
    have steady := steady.after settles
    exact .within (halts_interpret modules tame { steady with
      beyond
      importStack := congrArg (host.files.canonical path :: ·) steady.importStack })

/-- A function that imports its own file and then calls itself without end. -/
theorem tame_concludes_recursive :
    let loop := "FUNCTION go() IMPORT 'loop'; RETURN loop.go() END"
    let host : Host :=
      { config := { root := ⟨"/"⟩ }, files := ⟨[], [(["loop.vlb"], .text loop)]⟩ }
    let text := "IMPORT 'loop'; loop.go()"
    host.Tame ∧ (∀ nodes, Node.ofText "main" text = .ok nodes → Node.allTame nodes = true) ∧
      Concludes (fun m => runText host m "main" text) {} := by
  intro loop host text
  have parsed (name : String) : (Node.ofText name loop).map Node.allTame = .ok true := by cbv
  have main : (Node.ofText "main" text).map Node.allTame = .ok true := by cbv
  have modules : host.Tame := by
    refine ⟨rfl, fun {path text nodes} found here => ?_⟩
    obtain ⟨entry, known, content, _⟩ := FileTree.exists_of_read found
    obtain rfl : text = loop := by
      rw [List.mem_singleton.mp known] at content
      exact (Content.text.inj content).symm
    have known := parsed path.text
    rw [here] at known
    exact Except.ok.inj known
  have tame : ∀ nodes, Node.ofText "main" text = .ok nodes → Node.allTame nodes = true := by
    intro nodes here
    rw [here] at main
    exact Except.ok.inj main
  exact ⟨modules, tame, (tame_concludes modules {}).2.1 "main" text tame⟩

end Eval

end BasicScript
