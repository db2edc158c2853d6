import BasicScript.Diagnostic
import BasicScript.Proofs.Node.Span

/-! The plain rendering of a diagnostic. A place in a text stands on one of its lines, no further to
the right than that line is long. So the carets below the line are below its characters, or directly
behind the last of them. -/

set_option autoImplicit false

namespace BasicScript

abbrev linesOf (cs : List Char) : List (List Char) := cs.splitOn '\n'

theorem linesOf_eq (cs : List Char) : linesOf cs = cs.takeWhile (· != '\n') ::
    match cs.dropWhile (· != '\n') with
    | [] => []
    | _ :: rest => linesOf rest := by
  have free : '\n' ∉ cs.takeWhile (· != '\n') := fun inside => by
    simpa using List.mem_takeWhile_imp inside
  have whole : cs = cs.takeWhile (· != '\n') ++ cs.dropWhile (· != '\n') :=
    List.takeWhile_append_dropWhile.symm
  cases left : cs.dropWhile (· != '\n') with
  | nil =>
    rw [left, List.append_nil] at whole
    rw [← whole] at free ⊢
    exact List.splitOn_eq_singleton free
  | cons c rest =>
    have newline : c = '\n' := by
      have stop := List.head?_dropWhile_not (· != '\n') cs
      rw [left] at stop
      simpa using stop
    subst newline
    conv_lhs => rw [whole, left]
    exact List.splitOn_append_cons_self_of_not_mem free rest

theorem length_linesOf (cs : List Char) : (linesOf cs).length = cs.count '\n' + 1 := by
  induction cs with
  | nil => rfl
  | cons c cs ih =>
    rw [linesOf, List.splitOn_cons_eq_if_modifyHead]
    by_cases newline : c = '\n'
    · simp [newline, ih]
    · simp [newline, ih, List.length_modifyHead]

theorem takeWhile_dropLines (n : Nat) (cs : List Char) :
    (dropLines n cs).takeWhile (· != '\n') = (linesOf cs)[n]?.getD [] := by
  induction n generalizing cs with
  | zero => rw [linesOf_eq]; rfl
  | succ n ih =>
    cases cs with
    | nil => rfl
    | cons c cs =>
      rw [dropLines, ih, linesOf_eq (c :: cs), List.getElem?_cons_succ]
      cases (c :: cs).dropWhile (· != '\n') with
      | nil => cases n <;> rfl
      | cons _ rest => rfl

theorem SourceFile.line_eq {file : SourceFile} {n : Nat} {line : List Char}
    (found : (linesOf file.text.toList)[n - 1]? = some line) : file.line n = String.ofList line := by
  rw [SourceFile.line, takeWhile_dropLines, found, Option.getD_some]

namespace Position.Marks

variable {cs : List Char} {p q : Position}

theorem split (marks : p.Marks cs) : ∃ above here ahead, cs = above ++ (here ++ ahead) ∧
    p.column = here.length ∧ p.line = 1 + above.count '\n' ∧ '\n' ∉ here ∧
      (above = [] ∨ ∃ lines, above = lines ++ ['\n']) := by
  generalize behind : (cs.take p.index).reverse = back
  have before : cs.take p.index = back.reverse := by rw [← behind, List.reverse_reverse]
  have whole : back.takeWhile (· != '\n') ++ back.dropWhile (· != '\n') = back :=
    List.takeWhile_append_dropWhile
  have free : '\n' ∉ back.takeWhile (· != '\n') := fun inside => by
    simpa using List.mem_takeWhile_imp inside
  refine ⟨(back.dropWhile (· != '\n')).reverse, (back.takeWhile (· != '\n')).reverse, cs.drop p.index,
    ?_, ?_, ?_, by simpa using free, ?_⟩
  · rw [← List.append_assoc, ← List.reverse_append, whole, ← before, List.take_append_drop]
  · rw [marks.column, behind, List.length_reverse]
  · rw [marks.line, before, List.count_reverse, List.count_reverse]
    conv_lhs => rw [← whole, List.count_append, List.count_eq_zero.mpr free, Nat.zero_add]
  · cases left : back.dropWhile (· != '\n') with
    | nil => exact .inl rfl
    | cons c rest =>
      have newline : c = '\n' := by
        have stop := List.head?_dropWhile_not (· != '\n') back
        rw [left] at stop
        simpa using stop
      exact .inr ⟨rest.reverse, by rw [List.reverse_cons, newline]⟩

theorem line_pos (marks : p.Marks cs) : 1 ≤ p.line := marks.line ▸ Nat.le_add_right 1 _

/-- A place stands on a line of its text, no further to the right than this line is long. -/
theorem on_line (marks : p.Marks cs) :
    ∃ line, (linesOf cs)[p.line - 1]? = some line ∧ p.column ≤ line.length := by
  obtain ⟨above, here, ahead, rfl, column, number, free, whole⟩ := marks.split
  have first : (linesOf (here ++ ahead))[0]? = some (here ++ ahead.takeWhile (· != '\n')) := by
    rw [linesOf_eq, List.getElem?_cons_zero, List.takeWhile_append_of_pos]
    exact fun c inside => bne_iff_ne.mpr fun newline => free (newline ▸ inside)
  refine ⟨here ++ ahead.takeWhile (· != '\n'), ?_, ?_⟩
  · rw [number, Nat.add_sub_cancel_left, ← first]
    rcases whole with rfl | ⟨lines, rfl⟩
    · rfl
    · rw [List.append_assoc, List.singleton_append, linesOf, List.splitOn_append_cons_self,
        List.getElem?_append_right (by simp [length_linesOf])]
      simp [length_linesOf]
  · rw [column, List.length_append]
    exact Nat.le_add_right _ _

/-- Two places on one line are as far apart as their columns are. -/
theorem apart (first : p.Marks cs) (second : q.Marks cs) (le : p.index ≤ q.index)
    (same : q.line = p.line) : q.column - p.column = q.index - p.index ∧ p.column ≤ q.column := by
  -- what stands between them
  obtain ⟨between, found⟩ : ∃ between, cs.take q.index = cs.take p.index ++ between := by
    obtain ⟨between, found⟩ := List.take_prefix_take_left le (l := cs)
    exact ⟨between, found.symm⟩
  have free : '\n' ∉ between := by
    have := second.line
    rw [same, first.line, found, List.count_append] at this
    exact List.count_eq_zero.mp (by omega)
  have length : q.index = p.index + between.length := by
    have := congrArg List.length found
    rw [List.length_append, List.length_take_of_le second.inside, List.length_take_of_le first.inside]
      at this
    exact this
  have column : q.column = between.length + p.column := by
    rw [second.column, found, List.reverse_append, List.takeWhile_append_of_pos, List.length_append,
      List.length_reverse, ← first.column]
    exact fun c inside => bne_iff_ne.mpr fun newline => free (List.mem_reverse.mp (newline ▸ inside))
  omega

end Position.Marks

namespace Diagnostic

/-- The diagnostic is about a stretch of this file. Its rendering shows the active calls, if there
are several; then `line`, the one of the file that the diagnostic starts on; and below it blanks up
to the start and then `width` carets, none further to the right than right behind the line. -/
structure Underlines (d : Diagnostic) (file : SourceFile) (line : List Char) (width : Nat) : Prop where
  isIn : d.span.IsIn file
  onLine : 1 ≤ d.span.start.line ∧ (linesOf file.text.toList)[d.span.start.line - 1]? = some line
  renders : ∃ below, d.render = String.join (d.stackLines.map (· ++ "\n")) ++
    String.ofList line ++ "\n" ++
    String.ofList (List.replicate d.span.start.column ' ' ++ List.replicate width '^') ++ "\n" ++ below
  carets : 1 ≤ width
  starts : d.span.start.column ≤ line.length
  ends : d.span.start.column + width ≤ max line.length (d.span.start.column + 1)
  /-- The carets are as many as the characters of the stretch, if it has some and all on one
  line. -/
  covers : d.span.stop.line = d.span.start.line → d.span.start.index < d.span.stop.index →
    width = d.span.stop.index - d.span.start.index

theorem intercalate_append {sep first : String} {above rest : List String} :
    sep.intercalate (above ++ first :: rest) =
      String.join (above.map (· ++ sep)) ++ sep.intercalate (first :: rest) := by
  induction above with
  | nil => simp
  | cons line above ih =>
    rw [List.cons_append, String.intercalate_cons_of_ne_nil (by simp), ih, List.map_cons,
      String.join_cons, String.append_assoc, String.append_assoc, String.append_assoc]

theorem render_eq (d : Diagnostic) : ∃ below, d.render =
    String.join (d.stackLines.map (· ++ "\n")) ++ d.code ++ "\n" ++ d.underline ++ "\n" ++ below := by
  refine ⟨"\n".intercalate (d.notes ++ [d.fault.display] ++ d.helpLines ++ ["", d.location]), ?_⟩
  have lines : d.lines = d.stackLines ++ d.code :: d.underline ::
      (d.notes ++ [d.fault.display] ++ d.helpLines ++ ["", d.location]) := by
    simp [Diagnostic.lines]
  rw [render, lines, intercalate_append, String.intercalate_cons_cons,
    String.intercalate_cons_of_ne_nil (by simp)]
  simp only [String.append_assoc]

/-- A diagnostic about a stretch of a text underlines what it is about. -/
theorem underlines {d : Diagnostic} {file : SourceFile} (isIn : d.span.IsIn file) :
    ∃ line width, d.Underlines file line width := by
  obtain ⟨line, found, starts⟩ := isIn.start.on_line
  have code : d.code = String.ofList line := by
    rw [Diagnostic.code, isIn.ofFile]
    exact SourceFile.line_eq found
  refine ⟨line, d.width, isIn, ⟨isIn.start.line_pos, found⟩, ?_, Nat.le_max_right _ _, starts, ?_, ?_⟩
  · obtain ⟨below, renders⟩ := d.render_eq
    exact ⟨below, by rw [renders, code]; rfl⟩
  · by_cases same : d.span.stop.line = d.span.start.line
    · -- the end of the span is on the same line, and so not behind it either
      obtain ⟨line', found', stops⟩ := isIn.stop.on_line
      rw [same, found] at found'
      cases found'
      simp only [width, same, ↓reduceIte]
      omega
    · simp only [width, same, ↓reduceIte, code, String.length_ofList]
      omega
  · intro same some
    have apart := isIn.start.apart isIn.stop isIn.start_le_stop same
    simp only [width, same, ↓reduceIte]
    omega

end Diagnostic

end BasicScript
