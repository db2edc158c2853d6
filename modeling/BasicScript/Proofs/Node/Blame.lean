import BasicScript.Proofs.Node.Extent
import BasicScript.Proofs.Node.Stopping

/-! Where the faults of a text are reported. Scanning blames characters of the text; parsing blames
the next token, or the place behind the last token if there is none left. -/

set_option autoImplicit false

namespace BasicScript

namespace Token

/-- Scanning reports its faults where the text has them: `behind` stands in front of what is
left. -/
theorem scanFrom_blames {file : SourceFile} {behind cs : List Char} {skip : Nat}
    {scanned : List Token} {d : Diagnostic} (whole : file.text.toList = behind ++ cs)
    (failed : scanFrom file cs skip (Position.origin.after behind) scanned = .error d) :
    d.span.IsIn file := by
  -- on what is left of the text; each character moves over to what lies behind
  induction cs generalizing behind skip scanned with
  | nil => cases failed
  | cons c rest ih =>
    have next : (Position.origin.after behind).next c = Position.origin.after (behind ++ [c]) :=
      (Position.after_append .origin behind [c]).symm
    have goesOn {more : Nat} {scanned : List Token} (failed : scanFrom file rest more
        ((Position.origin.after behind).next c) scanned = .error d) : d.span.IsIn file := by
      rw [next] at failed
      exact ih (by simpa using whole) failed
    cases skip with
    | succ skip => exact goesOn failed
    | zero =>
      have fits := Step.recognize_fits c rest
      rw [scanFrom] at failed
      cases step : Step.recognize c rest with
      | blank more =>
        rw [step] at failed
        exact goesOn failed
      | token kind literal more =>
        rw [step] at failed
        exact goesOn failed
      | fault cause start stop =>
        rw [step] at failed fits
        cases failed
        have ahead (n : Nat) : ((Position.origin.after behind).after ((c :: rest).take n)).Marks
            file.text.toList := by
          have marks := Position.marks_after (behind ++ (c :: rest).take n) ((c :: rest).drop n)
          rwa [List.append_assoc, List.take_append_drop, ← whole, Position.after_append] at marks
        refine ⟨rfl, ahead start, ahead stop, ?_⟩
        simp only [Position.index_after, List.length_take]
        have := fits.2
        omega

theorem scan_blames {name text : String} {d : Diagnostic} (failed : scan name text = .error d) :
    d.span.IsIn (.scanned name text) :=
  have whole : (SourceFile.scanned name text).text.toList = [] ++ Token.expandTabs text.toList :=
    String.toList_ofList
  scanFrom_blames whole failed

end Token

namespace Cursor

theorem faultSpan_isIn {file : SourceFile} {w tail : List Token} (some : w ++ tail ≠ [])
    (isIn : ∀ token ∈ w ++ tail, token.span.IsIn file) (c : Cursor) :
    (c.past w tail).faultSpan.IsIn file := by
  cases tail with
  | cons token rest => exact isIn token (List.mem_append_right w List.mem_cons_self)
  | nil =>
    rw [List.append_nil] at some isIn
    have last := List.getLast?_eq_some_getLast some
    have isIn := isIn _ (List.getLast_mem some)
    rw [past, last, Option.some_or]
    exact ⟨isIn.ofFile, isIn.ofFile ▸ isIn.stop, isIn.stop, Nat.le_refl _⟩

end Cursor

namespace Node

/-- Parsing reports its faults where the text has the tokens. -/
theorem ofTokens_blames {name text : String} {tokens : List Token} {d : Diagnostic}
    (scanned : Token.scan name text = .ok tokens) (failed : ofTokens tokens = .error d) :
    d.span.IsIn (.scanned name text) := by
  have faces := Cursor.faces_ofTokens scanned
  rw [ofTokens_eq] at failed
  cases Grammar.program_predictive.decides (Cursor.ofTokens tokens) (Nat.lt_succ_self _) with
  | value w tail nodes splits reads silent =>
    rw [reads.apply splits (.inl rfl)] at failed
    cases failed
  | stop w tail e splits stuck completes =>
    have stops := stuck.apply splits
    rw [stops] at failed
    cases failed
    rw [stuck.span]
    refine Cursor.faultSpan_isIn (fun none => ?_) (fun token inside => ?_) _
    · -- there are programs without statements
      rw [none] at splits
      have start : Cursor.ofTokens tokens = ⟨0, .none, []⟩ := congrArg (Cursor.mk 0 .none) splits
      rw [start] at stops
      cases stops
    · exact faces.isIn _ (List.mem_map_of_mem (splits ▸ inside))

/-- What is wrong with a text is reported where the text has it. -/
theorem ofText_blames {name text : String} {d : Diagnostic} (failed : ofText name text = .error d) :
    d.span.IsIn (.scanned name text) := by
  unfold ofText at failed
  cases scanned : Token.scan name text with
  | error _ =>
    rw [scanned] at failed
    cases failed
    exact Token.scan_blames scanned
  | ok tokens =>
    rw [scanned] at failed
    exact ofTokens_blames scanned failed

end Node

end BasicScript
