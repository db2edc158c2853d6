import BasicScript.Proofs.Node.Stopping
import BasicScript.Proofs.Token.Line

/-! Parsing line by line. Statements that end at the end of a file end in the same way at a line
break, so the statements of two texts, one below the other, are those of both. -/

set_option autoImplicit false

namespace BasicScript.Grammar

open BasicScript.Parser

variable {nodes made : List Node} {node : Node} {token : Token} {w v tail : List Token}
  {c d : Cursor}

abbrev lineStart : Follow := (· ∈ [none, some .newline])

/-- The loop over statements passes over `w`, and `made` are the statements that it finds there. -/
def Passes (w : List Token) (made : List Node) : Prop :=
  ∀ nodes (c : Cursor) v, lineStart (first? v) →
    programLoop unbounded.statement nodes (c.before (w ++ v)) =
      programLoop unbounded.statement (made.reverse ++ nodes) (c.past w v)

def lineFinish (node : Node) : Parser Node := do
  match ← take? .newline with
  | some _ => return node
  | none => if ← atBlockEnd then return node else expected .statementEnd

theorem statementLine_eq (statement : Parser Node) :
    statementLine statement = statement >>= lineFinish := rfl

theorem lineFinish_of_newline (newline : token.kind = .newline) :
    lineFinish node (c.before (token :: tail)) = .ok node (c.past [token] tail) := by
  have want : (token.kind == .newline) = true := beq_iff_eq.mpr newline
  have taken : Reads (take? .newline) [token] (some token) anything := .takeIf? want anything
  exact (bind_of_ok (taken c tail trivial)).trans rfl

theorem lineFinish_of_other (other : c.kind? ≠ some .newline) : lineFinish node c =
    (if endsBlock c.kind? then pure node else expected .statementEnd : Parser Node) c := by
  rw [lineFinish, take?, bind_of_ok (takeIf?_of_other (unwanted_of_ne other))]
  dsimp only
  rw [atBlockEnd_bind, bind_of_ok (peekKind?_eq c)]

theorem lineFinish_of_block (close : endsBlock c.kind? = true) : lineFinish node c = .ok node c := by
  have other : c.kind? ≠ some .newline := fun same => by rw [same] at close; cases close
  rw [lineFinish_of_other other, if_pos close]
  rfl

theorem block_of_lineFinish {made : Node} (other : c.kind? ≠ some .newline)
    (done : lineFinish node c = .ok made d) : endsBlock c.kind? = true := by
  refine Decidable.byContradiction fun inside => ?_
  rw [lineFinish_of_other other, if_neg inside, expected_eq] at done
  cases done

theorem programLoop_newlines (newlines : ∀ token ∈ w, token.kind = .newline) (nodes : List Node)
    (c : Cursor) (v : List Token) :
    programLoop unbounded.statement nodes (c.before (w ++ v)) =
      programLoop unbounded.statement nodes (c.past w v) := by
  have skipped : (c.before (w ++ v)).skipNewlines = (c.past w v).skipNewlines := by
    induction w generalizing c with
    | nil => rw [Cursor.past_nil]; rfl
    | cons token rest ih =>
      obtain ⟨newline, newlines⟩ := List.forall_mem_cons.mp newlines
      rw [Cursor.past_cons, ← ih newlines]
      exact if_pos newline
  rw [congrFun programLoop_eq nodes, programBody, bind_of_ok (skipNewlines_eq _),
    bind_of_ok (skipNewlines_eq _), skipped]

theorem programLoop_line {kind : TokenKind} (other : kind ≠ .newline) (here : c.kind? = some kind) :
    programLoop unbounded.statement nodes c =
      (statementLine unbounded.statement >>= fun node =>
        programLoop unbounded.statement (node :: nodes)) c := by
  have still : c.skipNewlines = c := by
    obtain ⟨taken, previous, _ | ⟨token, rest⟩⟩ := c
    · cases here
    · exact if_neg fun newline => other (Option.some.inj here ▸ newline)
  rw [congrFun programLoop_eq nodes, programBody, bind_of_ok (skipNewlines_eq _), still,
    bind_of_ok (peekKind?_eq c), here]

theorem lineFinish_passes {made : Node}
    (done : lineFinish node (c.before (token :: tail)) = .ok made d) :
    made = node ∧ ∃ u rest, token :: tail = u ++ rest ∧ d = c.past u rest ∧ ∀ (c : Cursor) v,
      lineFinish node (c.before (token :: tail ++ v)) = .ok node (c.past u (rest ++ v)) := by
  by_cases newline : token.kind = .newline
  · rw [lineFinish_of_newline newline] at done
    cases done
    exact ⟨rfl, [token], tail, rfl, rfl, fun c v => lineFinish_of_newline newline⟩
  · have other (v : List Token) : (c.before (token :: v)).kind? ≠ some .newline :=
      fun same => newline (Option.some.inj same)
    have close : endsBlock (c.before (token :: tail)).kind? = true :=
      block_of_lineFinish (other tail) done
    rw [lineFinish_of_block close] at done
    cases done
    refine ⟨rfl, [], token :: tail, rfl, (c.past_nil _).symm, fun c v => ?_⟩
    rw [Cursor.past_nil]
    exact lineFinish_of_block close

/-- The line breaks in front of the first other token. -/
theorem exists_split_newlines (w : List Token) : ∃ lines u, w = lines ++ u ∧
    (∀ token ∈ lines, token.kind = .newline) ∧ first? u ≠ some .newline := by
  induction w with
  | nil => exact ⟨[], [], rfl, List.forall_mem_nil _, nofun⟩
  | cons token rest ih =>
    by_cases newline : token.kind = .newline
    · obtain ⟨lines, u, rfl, newlines, other⟩ := ih
      exact ⟨token :: lines, u, rfl, List.forall_mem_cons.mpr ⟨newline, newlines⟩, other⟩
    · exact ⟨[], token :: rest, rfl, List.forall_mem_nil _,
        fun same => newline (Option.some.inj same)⟩

theorem Passes.newlines (newlines : ∀ token ∈ w, token.kind = .newline) : Passes w [] :=
  fun nodes c v _ => programLoop_newlines newlines nodes c v

theorem Passes.behind_newlines (newlines : ∀ token ∈ v, token.kind = .newline)
    (passes : Passes w made) : Passes (v ++ w) made := by
  intro nodes c tail follows
  rw [List.append_assoc, programLoop_newlines newlines, ← Cursor.past_past c v (w ++ tail)]
  exact passes nodes (c.past v (w ++ tail)) tail follows

/-- Where a statement begins, the loop takes a line. -/
theorem programLoop_statement (begins : w ≠ []) (other : first? w ≠ some .newline) :
    programLoop unbounded.statement nodes (c.before (w ++ v)) =
      (statementLine unbounded.statement >>= fun node =>
        programLoop unbounded.statement (node :: nodes)) (c.before (w ++ v)) := by
  obtain _ | ⟨token, w⟩ := w
  · exact absurd rfl begins
  · exact programLoop_line (fun same => other (congrArg some same)) rfl

theorem lineStart_separators : ∀ h, lineStart h → separators h := by decide

/-- A statement at the very end of the file ends at a line break, too. -/
theorem Passes.last (begins : w ≠ []) (other : first? w ≠ some .newline)
    (reads : Reads unbounded.statement w node separators) : Passes w [node] := by
  intro nodes c v follows
  rw [programLoop_statement begins other, statementLine_eq, bind_assoc,
    bind_of_ok (reads c v (lineStart_separators _ follows))]
  obtain _ | ⟨token, v⟩ := v
  · rw [bind_of_ok (lineFinish_of_block rfl)]
    rfl
  · have newline : token.kind = .newline := by simpa using follows
    have skipped := programLoop_newlines (w := [token]) (by simpa using newline) (node :: nodes)
      (c.past w []) v
    exact (bind_of_ok (lineFinish_of_newline (c := c.past w []) newline)).trans skipped.symm

/-- A statement whose line ends in front of `rest`, and what can be passed over there. -/
theorem Passes.line {u rest : List Token} (begins : w ≠ []) (other : first? w ≠ some .newline)
    (reads : Reads unbounded.statement w node fun h => h = first? (token :: tail) ∨ separators h)
    (splits : token :: tail = u ++ rest)
    (ends : ∀ (c : Cursor) v,
      lineFinish node (c.before (token :: tail ++ v)) = .ok node (c.past u (rest ++ v)))
    (passes : Passes rest made) : Passes (w ++ token :: tail) (node :: made) := by
  intro nodes c v follows
  rw [List.append_assoc, programLoop_statement begins other, statementLine_eq, bind_assoc,
    bind_of_ok (reads c (token :: tail ++ v) (.inl rfl)), List.reverse_cons, List.append_assoc]
  have goesOn := passes (node :: nodes) ((c.past w []).past u []) v follows
  have whole : ((c.past w []).past u []).past rest v = c.past (w ++ token :: tail) v := by
    rw [Cursor.past_past, Cursor.past_past, ← splits]
  rw [whole] at goesOn
  exact (bind_of_ok (ends (c.past w []) v)).trans goesOn

/-- If the loop comes to an end on some tokens, it passes over them wherever a line may follow. -/
theorem passes_of_ok {nodes result : List Node}
    (done : programLoop unbounded.statement nodes (c.before w) = .ok result d) :
    ∃ made, Passes w made := by
  -- on the number of tokens: behind a line, fewer are left
  induction size : w.length using Nat.strongRecOn generalizing w nodes c with
  | ind k ih =>
  obtain ⟨lines, u, rfl, newlines, other⟩ := exists_split_newlines w
  rw [programLoop_newlines newlines] at done
  obtain _ | ⟨first, u⟩ := u
  · rw [List.append_nil]
    exact ⟨[], .newlines newlines⟩
  rw [programLoop_line (fun same => other (congrArg some same)) rfl, statementLine_eq,
    bind_assoc] at done
  have decides := (foreseen (u.length + 2)).statement.decides (c.past lines (first :: u))
    (Nat.lt_succ_self _)
  cases decides with
  | stop _ _ _ splits stuck _ =>
    rw [bind_of_error (stuck.apply splits)] at done
    cases done
  | value x tail node splits reads silent =>
    have splits : first :: u = x ++ tail := splits
    have begins : x ≠ [] := fun empty => absurd (silent empty none (by decide)) (by decide)
    have other : first? x ≠ some .newline := by
      rw [← List.append_nil x, first?_append begins [] tail, ← splits]
      exact other
    rw [bind_of_ok (reads.apply splits (.inl rfl))] at done
    rw [splits]
    obtain _ | ⟨token, tail⟩ := tail
    · rw [List.append_nil]
      exact ⟨[node], .behind_newlines newlines (.last begins other (reads.mono fun _ => .inr))⟩
    cases ended : lineFinish node ((c.past lines (first :: u)).past x (token :: tail)) with
    | error _ _ =>
      rw [bind_of_error ended] at done
      cases done
    | ok again d' =>
      let behind := (c.past lines (first :: u)).past x []
      obtain ⟨rfl, y, rest, parts, rfl, ends⟩ := lineFinish_passes (c := behind) ended
      rw [bind_of_ok ended] at done
      have fewer : rest.length < k := by
        have := List.length_pos_iff.mpr begins
        have := congrArg List.length parts
        rw [← size, splits]
        simp only [List.length_append] at this ⊢
        omega
      obtain ⟨made, passes⟩ := ih rest.length fewer (c := behind.past y []) done rfl
      exact ⟨_, .behind_newlines newlines (.line begins other reads parts ends passes)⟩

/-- A program whose file ends behind `w` has the statements that are passed over there. -/
theorem Passes.program (passes : Passes w made) :
    program ⟨0, none, w⟩ = .ok made (Cursor.past ⟨0, none, []⟩ w []) := by
  have ends := passes [] ⟨0, none, []⟩ [] (by decide)
  rw [List.append_nil, List.append_nil] at ends
  refine ends.trans ?_
  have nothing := programLoop_nothing made.reverse (Cursor.past ⟨0, none, []⟩ w []) [] (by decide)
  rwa [List.reverse_reverse, Cursor.past_nil] at nothing

/-- Lines below other lines. -/
theorem Passes.below {made' : List Node} (upper : Passes w made) (newline : token.kind = .newline)
    (lower : Passes v made') : Passes (w ++ token :: v) (made ++ made') := by
  intro nodes c tail follows
  have newlines : ∀ t ∈ [token], t.kind = .newline := by simpa using newline
  have start : lineStart (first? (token :: v ++ tail)) := by simp [newline]
  rw [List.append_assoc, upper nodes c _ start]
  have goesOn := lower.behind_newlines newlines (made.reverse ++ nodes) (c.past w []) tail follows
  rw [Cursor.past_past] at goesOn
  rw [List.reverse_append, List.append_assoc]
  exact goesOn

end BasicScript.Grammar

namespace BasicScript.Node

open Grammar

/-- Tokens that are closed by an end of file are the ones in front of it. -/
theorem start_of_closed {body : List Token} {close : Token}
    (real : ∀ token ∈ body, token.kind ≠ .eof) (closes : close.kind = .eof) :
    Cursor.ofTokens (body ++ [close]) = ⟨0, none, body⟩ := by
  rw [Cursor.ofTokens_append real, Cursor.ofTokens_eof closes, List.append_nil]

theorem passes_of_ofTokens {body : List Token} {close : Token} {nodes : List Node}
    (real : ∀ token ∈ body, token.kind ≠ .eof) (closes : close.kind = .eof)
    (done : ofTokens (body ++ [close]) = .ok nodes) : Passes body nodes := by
  rw [ofTokens_eq, start_of_closed real closes] at done
  cases ran : program ⟨0, none, body⟩ with
  | error _ _ =>
    rw [ran] at done
    cases done
  | ok result d =>
    obtain ⟨made, passes⟩ := passes_of_ok (c := ⟨0, none, body⟩) ran
    rw [passes.program] at done
    cases done
    exact passes

/-- The lines of tokens that have been moved to other places. -/
theorem passes_relocate {body : List Token} {close : Token} {nodes : List Node}
    (real : ∀ token ∈ body, token.kind ≠ .eof) (closes : close.kind = .eof)
    (done : ofTokens (body ++ [close]) = .ok nodes) (g : Relocation) :
    Passes (body.map (Token.relocate g)) (nodes.map (relocate g)) := by
  have moved : ofTokens ((body ++ [close]).map (Token.relocate g)) = .ok (nodes.map (relocate g)) := by
    obtain ⟨found, same, moved⟩ | ⟨d, e, _, failed, _⟩ := ofTokens_relocate (g := g) (body ++ [close])
    · rw [done] at same
      cases same
      exact moved
    · rw [done] at failed
      cases failed
  rw [List.map_append] at moved
  have closed : (close.relocate g).kind = .eof := closes
  refine passes_of_ofTokens (fun token inside => ?_) closed moved
  obtain ⟨old, known, rfl⟩ := List.mem_map.mp inside
  exact real old known

/-- Two texts that can be parsed can be parsed one below the other. The statements are those of
both: the first stay where they are, and the others move on by the characters and lines above
them. -/
theorem ofText_line {first second above below : String} {upper lower : List Node}
    (upperDone : ofText first above = .ok upper) (lowerDone : ofText second below = .ok lower)
    (name : String) : ofText name (above ++ "\n" ++ below) =
      .ok (upper.map (relocate (.toAbove name above below)) ++
        lower.map (relocate (.toBelow name above below))) := by
  obtain ⟨upperTokens, upperScanned, upperParsed⟩ := exists_scan_of_ofText upperDone
  obtain ⟨lowerTokens, lowerScanned, lowerParsed⟩ := exists_scan_of_ofText lowerDone
  obtain ⟨body, close, line, rfl, closes, real, newline, scanned⟩ :=
    Token.scan_line upperScanned lowerScanned name
  obtain ⟨body', close', _, rfl, closes', real', _, _⟩ :=
    Token.scan_line lowerScanned lowerScanned name
  have passes := (passes_relocate real closes upperParsed (.toAbove name above below)).below newline
    (passes_relocate real' closes' lowerParsed (.toBelow name above below))
  -- only the end of file of the second text is left
  have joined : ∀ token ∈ body.map (Token.relocate (.toAbove name above below)) ++
      line :: body'.map (Token.relocate (.toBelow name above below)), token.kind ≠ .eof := by
    intro token inside
    rcases List.mem_append.mp inside with inside | inside
    · obtain ⟨old, known, rfl⟩ := List.mem_map.mp inside
      exact real old known
    · rcases List.mem_cons.mp inside with rfl | inside
      · rw [newline]
        nofun
      · obtain ⟨old, known, rfl⟩ := List.mem_map.mp inside
        exact real' old known
  have closed : (close'.relocate (.toBelow name above below)).kind = .eof := closes'
  have start := start_of_closed joined closed
  unfold ofText
  rw [scanned, List.map_append, ← List.cons_append, ← List.append_assoc]
  show ofTokens (_ ++ [close'.relocate (.toBelow name above below)]) = _
  rw [ofTokens_eq, start, passes.program]
  rfl

end BasicScript.Node
