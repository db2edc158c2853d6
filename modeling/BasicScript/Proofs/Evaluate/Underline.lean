import BasicScript.Proofs.Diagnostic
import BasicScript.Proofs.Evaluate.Place
import BasicScript.Proofs.Node.Blame

/-! Every diagnostic underlines text of the right line. What goes wrong in a text is reported there;
what goes wrong in a run is reported in a text of the session, or in a file that has been imported.
-/

set_option autoImplicit false

namespace BasicScript

def Host.Reads (host : Host) (file : SourceFile) : Prop :=
  ∃ path text, host.files.read path = .ok text ∧ file = .scanned path.text text

/-- The stores that runs of texts lead to, and these texts. What is done to a session in between
leaves its store alone. -/
inductive Store.Reached (host : Host) : List SourceFile → Store → Prop
  | empty : Reached host [] {}
  | newContext {files : List SourceFile} {s : Session} (reached : Reached host files s.world.store)
      (name : String) : Reached host files ((Eval.newContext name).final s).world.store
  | interpret {files : List SourceFile} {s : Session} {name text : String} {nodes : List Node}
      (reached : Reached host files s.world.store) (parsed : Node.ofText name text = .ok nodes)
      (fuel : Nat) (context : Context) :
      Reached host (.scanned name text :: files)
        ((Eval.interpret host fuel nodes context).final s).world.store
  | runFile {files : List SourceFile} {s : Session} {name text : String} {nodes : List Node}
      (reached : Reached host files s.world.store) (parsed : Node.ofText name text = .ok nodes)
      (fuel : Nat) (path : Path) :
      Reached host (.scanned name text :: files)
        ((Eval.runFile host fuel path nodes).final s).world.store

def Span.InSources (host : Host) (files : List SourceFile) (span : Span) : Prop :=
  ∃ file, (file ∈ files ∨ host.Reads file) ∧ span.IsIn file

def Diagnostic.UnderlinesSource (host : Host) (files : List SourceFile) (d : Diagnostic) : Prop :=
  ∃ file line width, (file ∈ files ∨ host.Reads file) ∧ d.Underlines file line width

theorem Diagnostic.underlinesSource {host : Host} {files : List SourceFile} {d : Diagnostic}
    (inside : d.span.InSources host files) : d.UnderlinesSource host files := by
  obtain ⟨file, known, isIn⟩ := inside
  obtain ⟨line, width, underlines⟩ := d.underlines isIn
  exact ⟨file, line, width, known, underlines⟩

theorem Span.InSources.mono {host : Host} {files more : List SourceFile} {span : Span}
    (inside : span.InSources host files) (fewer : files ⊆ more) : span.InSources host more := by
  obtain ⟨file, known, isIn⟩ := inside
  exact ⟨file, known.imp_left (@fewer file), isIn⟩

/-- Scanning and parsing keep to the text. -/
theorem Node.ofText_located {P : Span → Prop} {name text : String}
    (inside : ∀ span : Span, span.IsIn (.scanned name text) → P span) : TextLocated P name text := by
  unfold TextLocated
  cases parsed : ofText name text with
  | error d => exact inside _ (ofText_blames parsed)
  | ok nodes =>
    obtain ⟨_, order⟩ := ofText_inOrder parsed
    intro root found node within
    have encloses := order.encloses root found node within
    exact ⟨inside _ encloses.span, fun part found => inside _ (encloses.parts.isIn part found)⟩

section Sources

variable {host : Host} {files : List SourceFile} {name text : String}

theorem Host.filesLocated : host.FilesLocated (Span.InSources host files) := fun path text found =>
  Node.ofText_located fun _ isIn => ⟨_, .inr ⟨path, text, found, rfl⟩, isIn⟩

theorem Node.ofText_inSources :
    Node.TextLocated (Span.InSources host (.scanned name text :: files)) name text :=
  Node.ofText_located fun _ isIn => ⟨_, .inl List.mem_cons_self, isIn⟩

theorem Store.Located.later {store : Store} (located : store.Located (Span.InSources host files))
    (file : SourceFile) : store.Located (Span.InSources host (file :: files)) :=
  located.mono fun _ inside => inside.mono (List.subset_cons_self _ _)

/-- Functions are only made by texts that have been run, and by files that can be imported. -/
theorem Store.Reached.located {store : Store} (reached : store.Reached host files) :
    store.Located (Span.InSources host files) := by
  induction reached with
  | empty => exact fun f inside => absurd inside (Array.not_mem_empty f)
  | newContext _ name ih => exact (Eval.newContext_locates name).final ih
  | interpret _ parsed fuel context ih =>
    exact (Eval.interpret_locates Host.filesLocated (Node.ofText_inSources.nodes parsed) fuel
      context).final (ih.later _)
  | runFile _ parsed fuel path ih =>
    exact (Eval.runFile_locates Host.filesLocated (Node.ofText_inSources.nodes parsed) fuel
      path).final (ih.later _)

theorem Eval.Locates.underlines {α : Type} {fits : α → Prop} {body : Eval α} {s t : Session}
    {file : SourceFile} {d : Diagnostic} (locates : body.Locates (Span.InSources host (file :: files)) fits)
    (reached : s.world.store.Reached host files) (failed : body s = .error (.failed d) t) :
    d.UnderlinesSource host (file :: files) :=
  Diagnostic.underlinesSource (locates.failure (reached.located.later file) failed)

end Sources

open Eval

/-- Whatever goes wrong in a text, or in running it, is underlined where it is. A fault of scanning
or parsing is one of the text. A fault of a run is one of the text as well, or of a text that was
run before it in the session, or of a file that can be imported. -/
theorem Diagnostic.faults_underlined (host : Host) (name text : String) :
    (∀ d, Token.scan name text = .error d →
      ∃ line width, d.Underlines (.scanned name text) line width) ∧
    (∀ d, Node.ofText name text = .error d →
      ∃ line width, d.Underlines (.scanned name text) line width) ∧
    ∀ files (s : Session), s.world.store.Reached host files → ∀ fuel d t,
      (runText host fuel name text s = .error (.failed d) t →
        d.UnderlinesSource host (.scanned name text :: files)) ∧
      ∀ nodes, Node.ofText name text = .ok nodes →
        (∀ context, interpret host fuel nodes context s = .error (.failed d) t →
          d.UnderlinesSource host (.scanned name text :: files)) ∧
        ∀ path, runFile host fuel path nodes s = .error (.failed d) t →
          d.UnderlinesSource host (.scanned name text :: files) := by
  refine ⟨fun d failed => d.underlines (Token.scan_blames failed),
    fun d failed => d.underlines (Node.ofText_blames failed),
    fun files s reached fuel d t => ⟨?_, fun nodes parsed => ⟨fun context => ?_, fun path => ?_⟩⟩⟩
  · exact (runText_locates Host.filesLocated Node.ofText_inSources fuel).underlines reached
  · exact (interpret_locates Host.filesLocated (Node.ofText_inSources.nodes parsed) fuel
      context).underlines reached
  · exact (runFile_locates Host.filesLocated (Node.ofText_inSources.nodes parsed) fuel
      path).underlines reached

/-- A backslash at the end of the text; a call that the text breaks off, where the caret stands
behind the line; and a fault in an imported function, over the end of its line. -/
theorem Diagnostic.faults_underlined_import :
    let host : Host :=
      { config := { root := ⟨"/"⟩ }
        files := ⟨[], [(["m.vlb"], .text "FUNCTION f(x)\n\tx - [1,\n2]\nEND")]⟩ }
    (∃ d line width, Token.scan "main" "x\t= 'ab\\" = .error d ∧
      d.Underlines (.scanned "main" "x\t= 'ab\\") line width) ∧
    (∃ d line width, Node.ofText "main" "f(" = .error d ∧
      d.Underlines (.scanned "main" "f(") line width) ∧
    ∃ d t, runText host 9 "main" "IMPORT 'm'\nm.f(1)" {} = .error (.failed d) t ∧
      d.span.file.name = "/m.vlb" ∧ d.code = "    x - [1," ∧ d.underline = "    ^^^^^^^" ∧
      d.UnderlinesSource host [.scanned "main" "IMPORT 'm'\nm.f(1)"] := by
  intro host
  refine ⟨?_, ?_, ?_⟩
  · cases scanned : Token.scan "main" "x\t= 'ab\\" with
    | error d =>
      obtain ⟨line, width, underlines⟩ := (faults_underlined host "main" "x\t= 'ab\\").1 d scanned
      exact ⟨d, line, width, rfl, underlines⟩
    | ok tokens =>
      have bad : (Token.scan "main" "x\t= 'ab\\").toOption.isNone = true := by decide +kernel
      rw [scanned] at bad
      cases bad
  · cases parsed : Node.ofText "main" "f(" with
    | error d =>
      obtain ⟨line, width, underlines⟩ := (faults_underlined host "main" "f(").2.1 d parsed
      exact ⟨d, line, width, rfl, underlines⟩
    | ok nodes =>
      have bad : (Node.ofText "main" "f(").toOption.isNone = true := by decide +kernel
      rw [parsed] at bad
      cases bad
  · have shown : ((runText host 9 "main" "IMPORT 'm'\nm.f(1)").failure? {}).map
        (fun d => (d.span.file.name, d.code, d.underline)) =
          some ("/m.vlb", "    x - [1,", "    ^^^^^^^") := by decide +kernel
    obtain ⟨d, ended, same⟩ := Option.map_eq_some_iff.mp shown
    obtain ⟨t, failed⟩ := Eval.error_of_failure? ended
    simp only [Prod.mk.injEq] at same
    obtain ⟨file, code, underline⟩ := same
    exact ⟨d, t, failed, file, code, underline,
      ((faults_underlined host "main" "IMPORT 'm'\nm.f(1)").2.2 [] {} .empty 9 d t).1 failed⟩

end BasicScript
