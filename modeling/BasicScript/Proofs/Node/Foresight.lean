import BasicScript.Proofs.Node.Level
import BasicScript.Proofs.Node.Lookahead

/-! Every rule of the grammar is predictive: it is decided by the next token, and what it has read
when it is stuck can be completed. A name completes whatever has not begun. -/

set_option autoImplicit false

namespace BasicScript.Grammar

open BasicScript.Parser

/-- What completes a rule of which nothing has been read. -/
abbrev begins : Follow := just .identifier

abbrev ends : Follow := Level.sum.ends

abbrev separators : Follow :=
  (· ∈ [none, some .newline, some (.keyword .end), some (.keyword .else), some (.keyword .elseIf)])

abbrev lineEnds : Follow :=
  (· ∈ [none, some (.keyword .end), some (.keyword .else), some (.keyword .elseIf)])

abbrev closers : Follow :=
  (· ∈ [some .rightParen, some .rightBracket, some .rightBrace])

abbrev atEnd (terminators : List Keyword) : Follow :=
  (· ∈ terminators.map (some ∘ TokenKind.keyword))

abbrev anything : Follow := fun _ => True

variable {k : Nat} {α : Type}

/-- The rules are predictive as long as fewer than `k` tokens are left. -/
structure Foreseen (k : Nat) : Prop where
  expression : Predictive k begins ends unbounded.expression
  comparison : Predictive k begins ends unbounded.comparison
  unary : Predictive k begins ends unbounded.unary
  statement : Predictive k begins separators unbounded.statement

theorem Foreseen.less {j : Nat} (foreseen : Foreseen k) (less : j ≤ k) : Foreseen j :=
  ⟨foreseen.expression.less less, foreseen.comparison.less less, foreseen.unary.less less,
    foreseen.statement.less less⟩

/-! ### Separators and blocks -/

def isKeyword (keywords : List Keyword) : Option TokenKind → Bool
  | some (.keyword k) => keywords.contains k
  | _ => false

theorem atKeyword_bind (keywords : List Keyword) (f : Bool → Parser α) :
    atKeyword keywords >>= f = peekKind? >>= fun h => f (isKeyword keywords h) := by
  rw [atKeyword, bind_assoc]
  congr 1
  funext h
  cases h with
  | none => rfl
  | some kind => cases kind <;> rfl

def endsBlock : Option TokenKind → Bool
  | none => true
  | h => isKeyword blockEnds h

theorem atBlockEnd_bind (f : Bool → Parser α) :
    atBlockEnd >>= f = peekKind? >>= fun h => f (endsBlock h) := by
  funext c
  rw [bind_of_ok (peekKind?_eq c), atBlockEnd, bind_assoc, bind_of_ok (peekKind?_eq c)]
  cases found : c.kind? with
  | none => rfl
  | some kind =>
    dsimp only
    rw [atKeyword_bind, bind_of_ok (peekKind?_eq c), found]
    rfl

theorem statementLine_predictive {statement : Parser Node}
    (predictive : Predictive k begins separators statement) :
    Predictive k begins lineEnds (statementLine statement) := by
  have close (node : Node) : Predictive k lineEnds lineEnds (do
      if ← atBlockEnd then return node else expected .statementEnd) := by
    rw [atBlockEnd_bind]
    exact (Predictive.pure node).only (endsBlock · = true) .statementEnd (fun _ yes => if_pos yes)
      (fun _ no => if_neg no) (by decide)
  exact .bind predictive (fun node => .option_le (fun _ _ => .pure node) (close node) (by decide))
    (by decide)

section Blocks

variable {terminators : List Keyword} (known : ∀ k ∈ terminators, k ∈ blockEnds)

include known in
theorem atEnd_lineEnds (h : Option TokenKind) (inside : atEnd terminators h) : lineEnds h := by
  obtain ⟨k, found, rfl⟩ := List.mem_map.mp inside
  have := known k found
  simp only [blockEnds, List.mem_cons, List.not_mem_nil, or_false] at this
  rcases this with rfl | rfl | rfl <;> decide

theorem isKeyword_iff {h : Option TokenKind} :
    isKeyword terminators h = true ↔ atEnd terminators h := by
  rcases h with _ | kind
  · simp [isKeyword]
  · cases kind <;> simp [isKeyword]

include known in
theorem blockLine_predictive {j : Nat} (opener : Keyword) {again : List Node → Parser (List Node)}
    (statement : Predictive (j + 1) begins separators unbounded.statement)
    (further : ∀ body, Predictive j (atEnd terminators) (atEnd terminators) (again body))
    (body : List Node) :
    Predictive (j + 1) begins (atEnd terminators) (do
      match ← peekKind? with
      | none => expected (.blockEnd terminators opener)
      | some _ => again ((← statementLine unbounded.statement) :: body)) := by
  have line := (statementLine_predictive statement).bind_taken (h := none)
    (fun node => further (node :: body)) (atEnd_lineEnds known) (by decide) (by decide)
  refine line.only (· ≠ none) (.blockEnd terminators opener) (fun h other => ?_)
    (fun h none => ?_) (by decide)
  · cases h with
    | none => exact absurd rfl other
    | some _ => rfl
  · rw [Decidable.not_not.mp none]

include known in
theorem blockBody_predictive {j : Nat} (opener : Keyword) {again : List Node → Parser (List Node)}
    (statement : Predictive (j + 1) begins separators unbounded.statement)
    (further : ∀ body, Predictive j (atEnd terminators) (atEnd terminators) (again body))
    (body : List Node) :
    Predictive (j + 1) (atEnd terminators) (atEnd terminators)
      (blockBody unbounded terminators opener again body) := by
  refine .skip ?_ fun h inside => ?_
  · rw [atKeyword_bind]
    refine (Predictive.pure body.reverse).choice
      (blockLine_predictive known opener statement further body) (atEnd terminators)
      (fun h inside => if_pos (isKeyword_iff.mpr inside))
      (fun h other => if_neg (mt isKeyword_iff.mp other)) (fun _ => id) (fun h name inside => ?_)
      fun _ => id
    obtain rfl := List.mem_singleton.mp name
    exact absurd (atEnd_lineEnds known _ inside) (by decide)
  · rintro rfl
    exact absurd (atEnd_lineEnds known _ inside) (by decide)

include known in
theorem bodyLoop_nothing (opener : Keyword) (body : List Node) :
    Reads (bodyLoop unbounded terminators opener body) [] body.reverse (atEnd terminators) := by
  have other (tail : List Token) (follows : atEnd terminators (first? tail)) :
      first? tail ≠ some .newline := by
    intro newline
    exact absurd (atEnd_lineEnds known _ (newline ▸ follows)) (by decide)
  rw [bodyLoop_eq]
  refine Reads.bind (w := []) (.skipNewlines (List.forall_mem_nil _)) ?_ other
  rw [atKeyword_bind]
  refine (Reads.pure body.reverse (atEnd terminators)).switch (atEnd terminators) (fun c here => ?_)
    fun _ => id
  rw [bind_of_ok (peekKind?_eq c), if_pos (isKeyword_iff.mpr here)]

variable (terminators) in
include known in
theorem block_predictive (foreseen : Foreseen k) (opener : Keyword) :
    Predictive k (atEnd terminators) (atEnd terminators) (block unbounded terminators opener) := by
  rw [block_eq]
  refine .loop (bodyLoop_eq terminators opener) (fun body => ?_) (fun j below further body => ?_) []
  · exact .nil (bodyLoop_nothing known opener body) fun _ => id
  · exact blockBody_predictive known opener (foreseen.statement.less below) further body

end Blocks

/-! ### Items -/

section Items

variable {item : Parser α}

def itemsRest (again : List α → Parser (List α)) (items : List α) : Parser (List α) := do
  skipNewlines
  match ← take? .comma with
  | none => return items.reverse
  | some _ =>
    skipNewlines
    again items

theorem itemsRest_nothing (again : List α → Parser (List α)) (items : List α) :
    Reads (itemsRest again items) [] items.reverse closers := by
  have other : ∀ h, closers h → h ≠ some .newline ∧ h.any (· == .comma) = false := by decide
  refine Reads.bind (w := []) (.skipNewlines (List.forall_mem_nil _)) ?_ fun tail follows => (other _ follows).1
  exact (Reads.pure items.reverse closers).missed fun tail follows => (other _ follows).2

theorem itemsRest_predictive {again : List α → Parser (List α)} {B : Follow}
    (further : ∀ items, Predictive k B closers (again items)) (real : ∀ h, B h → h ≠ some .newline)
    (items : List α) : Predictive k closers closers (itemsRest again items) :=
  .skip (.option_le (fun _ _ => .skip (further items) real) (.pure _) (by decide)) (by decide)

theorem itemsLoop_predictive {f : α → α} (tracks : ∀ k, Tracks .stay k k f item item)
    (same : ∀ a, f a = a) (predictive : Predictive k begins ends item) (items : List α) :
    Predictive k begins closers (itemsLoop item items) := by
  refine .loop (itemsLoop_eq tracks same) (fun items => ?_) (fun j below further items => ?_) items
  · rw [itemsLoop_eq tracks same]
    have rest (a : α) : Completable closers closers (itemsRest (itemsLoop item) (a :: items)) [] :=
      .nil (itemsRest_nothing _ _) fun _ => id
    exact predictive.possible.bind rest (by decide)
  · have rest (a : α) := itemsRest_predictive further (by decide) (a :: items)
    exact (predictive.less below).bind_taken (h := none) rest (by decide) rfl (by decide)

theorem itemsBefore_predictive {f : α → α} (tracks : ∀ k, Tracks .stay k k f item item)
    (same : ∀ a, f a = a) (predictive : Predictive k begins ends item) {close : TokenKind}
    (known : closers (some close)) :
    Predictive k (just close) (just close) (itemsBefore close item) := by
  have only (h : Option TokenKind) (here : just close h) : h = some close := List.mem_singleton.mp here
  have items : Predictive k begins (just close) (itemsLoop item []) :=
    (itemsLoop_predictive tracks same predictive []).mono (Nat.le_refl k) (fun _ => id)
      fun h here => only h here ▸ known
  rw [itemsBefore_eq]
  refine .skip ((Predictive.pure []).choice items (just close)
    (fun h yes => if_pos (only h yes)) (fun h no => if_neg (mt List.mem_singleton.mpr no))
    (fun _ => id) (fun h name here => ?_) fun _ => id) fun h here newline => ?_
  · rw [← only h here, List.mem_singleton.mp name] at known
    exact absurd known (by decide)
  · rw [← only h here, newline] at known
    exact absurd known (by decide)

end Items

/-! ### Atoms -/

theorem closing {kind : TokenKind} {f : Token → α} (real : kind ≠ .eof) (what : Expected) :
    Predictive k (just kind) anything (take kind what >>= fun last => pure (f last)) :=
  .bind (.take real what) (fun _ => .pure _) fun _ _ => trivial

theorem group_predictive (foreseen : Foreseen k) :
    Predictive k begins anything (group unbounded) := by
  have close (inner : Node) : Predictive k (just .rightParen) anything (do
      skipNewlines
      let _ ← take .rightParen .groupEnd
      return inner) := .skip (closing (by decide) _) (by decide)
  exact .skip (.bind foreseen.expression close (by decide)) (by decide)

theorem range_predictive (foreseen : Foreseen k) (first : Span) (start : Node) :
    Predictive k begins anything (range unbounded first start) := by
  have close (stop step : Node) : Predictive k (just .rightBracket) anything
      (take .rightBracket .rangeEnd >>= fun last =>
        pure (Node.range start stop step (first.upTo last.span))) := closing (by decide) _
  have further (stop step : Node) : Predictive k (just .rightBracket) anything
      (skipNewlines >>= fun _ => take .rightBracket .rangeEnd >>= fun last =>
        pure (Node.range start stop step (first.upTo last.span))) :=
    .skip (close stop step) (by decide)
  have step (stop : Node) := foreseen.expression.bind (further stop) (by decide)
  apply foreseen.expression.bind
  · intro stop
    apply Predictive.skip
    apply Predictive.option_le fun _ _ => step stop
    · exact close stop (defaultStep stop)
    all_goals decide
  · decide

theorem listRest_predictive (foreseen : Foreseen k) (first : Span) (start : Node) :
    Predictive k (just .rightBracket) anything (listRest unbounded first start) := by
  have close (items : List Node) : Predictive k (just .rightBracket) anything
      (take .rightBracket .listEnd >>= fun last =>
        pure (Node.list (start :: items) (first.upTo last.span))) :=
    closing (by decide) _
  have more := (itemsLoop_predictive (fun k => (unbounded_track .stay k).expression.tracks)
    Node.relocate_stay foreseen.expression []).bind close (by decide)
  refine .skip (.option_le (fun _ _ => range_predictive foreseen first start) ?_ ?_) ?_
  · refine .option_le (fun _ _ => .skip more ?_) (close []) ?_ <;> decide
  all_goals decide

theorem list_predictive (foreseen : Foreseen k) (first : Span) :
    Predictive k begins anything (list unbounded first) := by
  rw [list_eq]
  exact .skip (.option_le (fun _ _ => .pure _)
    (.bind foreseen.expression (listRest_predictive foreseen first) (by decide)) (by decide))
    (by decide)

theorem entry_predictive (foreseen : Foreseen k) :
    Predictive k begins ends (entry unbounded) := by
  have value (key : Node) : Predictive k begins ends (do
      skipNewlines
      return (key, ← unbounded.expression)) :=
    .skip (.bind foreseen.expression (fun _ => .pure _) fun _ => id) (by decide)
  apply foreseen.expression.bind
  · intro key
    exact .bind (.take (by decide) _) (fun _ => value key) fun _ _ => trivial
  · decide

theorem dictionary_predictive (foreseen : Foreseen k) (first : Span) :
    Predictive k (just .rightBrace) anything (dictionary unbounded first) := by
  have same (entry : Node × Node) : Node.relocateEntry .stay entry = entry := by
    simp only [Node.relocateEntry, Node.relocate_stay]
  exact .bind (itemsBefore_predictive (fun k => entry_tracks (unbounded_track .stay k)) same (entry_predictive foreseen) (by decide))
    (fun _ => closing (by decide) _) (by decide)

section Branches

variable (terminators : List Keyword) (known : ∀ k ∈ terminators, k ∈ blockEnds)

include known in
theorem branch_predictive (foreseen : Foreseen k) (opener : Keyword) :
    Predictive k begins (atEnd terminators) (branch unbounded terminators opener) := by
  have body (condition : Node) : Predictive k (just (.keyword .then)) (atEnd terminators) (do
      let _ ← take (.keyword .then) (.thenOf opener)
      return (condition, ← block unbounded terminators opener)) :=
    .bind (.take (by decide) _)
      (fun _ => .bind (block_predictive terminators known foreseen opener) (fun _ => .pure _) fun _ => id)
      fun _ _ => trivial
  exact .bind foreseen.expression body (by decide)

end Branches

abbrev branchEnds : Follow := (· ∈ [some (.keyword .end), some (.keyword .else)])

theorem elseIfsLoop_nothing (branches : List (Node × List Node)) :
    Reads (elseIfsLoop unbounded branches) [] branches.reverse branchEnds := by
  have other : ∀ h, branchEnds h → h.any (· == .keyword .elseIf) = false := by decide
  rw [elseIfsLoop_eq]
  exact (Reads.pure branches.reverse branchEnds).missed fun tail follows => other _ follows

theorem elseIfsLoop_predictive (foreseen : Foreseen k) (branches : List (Node × List Node)) :
    Predictive k branchEnds branchEnds (elseIfsLoop unbounded branches) := by
  refine .loop elseIfsLoop_eq (fun branches => .nil (elseIfsLoop_nothing branches) fun _ => id)
    (fun j below further branches => ?_) branches
  have branch := branch_predictive blockEnds (fun _ => id)
    (foreseen.less (Nat.le_of_lt below)) .elseIf
  exact .option (fun _ _ => branch.bind (fun branch => further (branch :: branches)) (by decide))
    (.pure _) (by decide)

theorem ifElse_predictive (foreseen : Foreseen k) (first : Span) :
    Predictive k begins anything (ifElse unbounded first) := by
  rw [ifElse_eq]
  have close (branches : List (Node × List Node)) (otherwise : Option (List Node)) :
      Predictive k (just (.keyword .end)) anything (blockClose .if >>= fun last =>
        pure (Node.ifElse branches otherwise (first.upTo last.span))) := closing (by decide) _
  have head := branch_predictive blockEnds (fun _ => id) foreseen .if
  have body := block_predictive [.end] (by decide) foreseen .else
  have otherwise (branches : List (Node × List Node)) : Predictive k (atEnd [.end]) anything
      (some <$> block unbounded [.end] .else >>= fun otherwise => blockClose .if >>= fun last =>
        pure (Node.ifElse branches otherwise (first.upTo last.span))) := by
    rw [map_eq_pure_bind, bind_assoc]
    exact body.bind (fun body => close branches (some body)) (by decide)
  apply head.bind
  · intro head
    apply (elseIfsLoop_predictive foreseen [head]).bind
    · intro branches
      exact .option_le (fun _ _ => otherwise branches) (close branches none) (by decide)
    · decide
  · decide

theorem whileLoop_predictive (foreseen : Foreseen k) (first : Span) :
    Predictive k begins anything (whileLoop unbounded first) :=
  .bind (branch_predictive [.end] (by decide) foreseen .while)
    (fun _ => closing (by decide) _) (by decide)

theorem forLoop_predictive (foreseen : Foreseen k) (first : Span) :
    Predictive k begins anything (forLoop unbounded first) := by
  have branch := branch_predictive [.end] (by decide) foreseen .for
  apply (Predictive.take (by decide) _).bind
  · intro item
    apply (Predictive.take (by decide) _).bind
    · intro _
      exact branch.bind (fun _ => closing (by decide) _) (by decide)
    · exact fun _ _ => trivial
  · exact fun _ _ => trivial

/-! ### Functions -/

/-- There is always another name. -/
theorem exists_fresh (names : List String) : ∃ name, name ∉ names := by
  have bounded : ∃ n, ∀ name ∈ names, name.length < n := by
    induction names with
    | nil => exact ⟨0, List.forall_mem_nil _⟩
    | cons name names ih =>
      obtain ⟨n, below⟩ := ih
      refine ⟨max n (name.length + 1), List.forall_mem_cons.mpr ⟨by omega, fun other inside => ?_⟩⟩
      have := below other inside
      omega
  obtain ⟨n, below⟩ := bounded
  refine ⟨String.ofList (List.replicate n 'x'), fun inside => ?_⟩
  have := below _ inside
  simp at this

theorem parameter_of_fresh {names : List String} {taken : Nat} {previous : Option Token}
    {token : Token} {rest : List Token} (name : token.kind = .identifier)
    (fresh : token.lexeme ∉ names) : parameter names (⟨taken, previous, token :: rest⟩ : Cursor) =
      .ok token.lexeme ⟨taken + 1, some token, rest⟩ := by
  have found : take .identifier .parameterName (⟨taken, previous, token :: rest⟩ : Cursor) =
      .ok token ⟨taken + 1, some token, rest⟩ := bind_of_ok (takeIf?_of_wanted (by simp [name]))
  rw [parameter, bind_of_ok found, if_neg (by simpa using fresh)]
  rfl

theorem parameter_of_repeated {names : List String} {taken : Nat} {previous : Option Token}
    {token : Token} {rest : List Token} (name : token.kind = .identifier)
    (repeated : token.lexeme ∈ names) :
    parameter names (⟨taken, previous, token :: rest⟩ : Cursor) =
      .error ⟨.duplicateParameter token.lexeme, token.span, [], []⟩
        ⟨taken + 1, some token, rest⟩ := by
  have found : take .identifier .parameterName (⟨taken, previous, token :: rest⟩ : Cursor) =
      .ok token ⟨taken + 1, some token, rest⟩ := bind_of_ok (takeIf?_of_wanted (by simp [name]))
  rw [parameter, bind_of_ok found, if_pos (by simpa using repeated)]
  rfl

/-- A repeated name is only refused once it has been taken. -/
theorem parameter_predictive (names : List String) :
    Predictive k begins anything (parameter names) := by
  have possible : Completable begins anything (parameter names) [] := by
    obtain ⟨fresh, unused⟩ := exists_fresh names
    refine ⟨[⟨.identifier, fresh, none, .synthetic ""⟩], fresh, by simp, ?_, fun _ _ _ => by simp⟩
    exact fun c tail _ => parameter_of_fresh rfl unused
  refine ⟨fun c _ => ?_, possible⟩
  by_cases here : c.kind? = some .identifier
  · obtain ⟨token, head, name⟩ := Option.map_eq_some_iff.mp here
    obtain ⟨rest, splits⟩ := List.head?_eq_some_iff.mp head
    by_cases repeated : token.lexeme ∈ names
    · refine .stop [] (token :: rest) ⟨.duplicateParameter token.lexeme, token.span, [], []⟩ splits
        ⟨Nat.le_add_left 1 _, rfl, fun other same => ?_⟩ possible
      obtain ⟨others, rfl⟩ := List.head?_eq_some_iff.mp same
      exact parameter_of_repeated name repeated
    · exact .value [token] rest token.lexeme splits (fun c tail _ => parameter_of_fresh name repeated)
        nofun
  · exact .expected .parameterName (· ≠ some .identifier) (fun c other =>
      bind_of_error ((take_of_other .parameterName other).trans (expected_eq _ c))) here possible

theorem parametersLoop_predictive (names : List String) :
    Predictive k begins (just .rightParen) (parametersLoop names) := by
  have possible (names : List String) :
      Completable begins (just .rightParen) (parametersLoop names) [] := by
    have other : ∀ h, just .rightParen h → h.any (· == .comma) = false := by decide
    rw [parametersLoop_eq]
    apply (parameter_predictive (k := k) names).possible.bind
    · intro param
      exact .nil ((Reads.pure (param :: names).reverse (just .rightParen)).missed
        fun tail follows => other _ follows) fun _ => id
    · exact fun _ _ => trivial
  refine .loop parametersLoop_eq possible (fun j below further names => ?_) names
  have rest (param : String) : Predictive j (just .rightParen) (just .rightParen) (do
      match ← take? .comma with
      | none => return (param :: names).reverse
      | some _ => parametersLoop (param :: names)) :=
    .option_le (fun _ _ => further (param :: names)) (.pure _) (by decide)
  exact (parameter_predictive names).bind_taken (h := none) rest (fun _ _ => trivial) trivial
    (by decide)

theorem parameters_predictive : Predictive k (just .rightParen) (just .rightParen) parameters := by
  rw [parameters_eq]
  exact (Predictive.pure []).choice (parametersLoop_predictive []) (just .rightParen)
    (fun h yes => if_pos (List.mem_singleton.mp yes))
    (fun h no => if_neg (mt List.mem_singleton.mpr no)) (fun _ => id) (by decide) fun _ => id

theorem function_predictive (foreseen : Foreseen k) (first : Span) :
    Predictive k (just .leftParen) anything (function unbounded first) := by
  have body := block_predictive [.end] (by decide) foreseen .function
  have signature (name : Option Token) : Predictive k (just .leftParen) anything (do
      let _ ← take .leftParen .parameterStart
      let params ← parameters
      let _ ← take .rightParen .parameterEnd
      let body ← block unbounded [.end] .function
      let last ← blockClose .function
      return Node.function (name.map Token.lexeme) params body (first.upTo last.span)) := by
    apply (Predictive.take (by decide) _).bind
    · intro _
      apply parameters_predictive.bind
      · intro params
        apply (Predictive.take (by decide) _).bind
        · intro _
          exact body.bind (fun _ => closing (by decide) _) (by decide)
        · exact fun _ _ => trivial
      · decide
    · exact fun _ _ => trivial
  exact .option_le (fun name _ => signature (some name)) (signature none) (by decide)

/-! ### Operators -/

/-- A rule whose first token says that it is followed. -/
theorem decides_of_rule {p rule : Parser α} {taken : Nat} {previous : Option Token} {token : Token}
    {rest : List Token} {B B' F : Follow}
    (follows : ∀ (taken : Nat) (previous : Option Token) (rest : List Token),
      p ⟨taken, previous, token :: rest⟩ = rule ⟨taken + 1, some token, rest⟩)
    (decides : Decides B' F rule ⟨taken + 1, some token, rest⟩) :
    Decides B F p ⟨taken, previous, token :: rest⟩ :=
  .prefixed (w := [token]) (by simp) rfl (fun c tail => follows c.taken c.previous tail) decides

theorem number_cases (token : Token) : (∃ node, (number token : Parser Node) = pure node) ∨
    (number token : Parser Node) = fail (.invalidLiteral token.lexeme) token.span := by
  unfold number
  split
  · exact .inl ⟨_, rfl⟩
  · exact .inl ⟨_, rfl⟩
  · exact .inr rfl

theorem number_decides {taken : Nat} {previous : Option Token} {token : Token} {rest : List Token}
    (found : atomOf? unbounded token = some (number token))
    (possible : Completable begins anything (atom unbounded) []) :
    Decides begins anything (atom unbounded) ⟨taken, previous, token :: rest⟩ := by
  have follows (taken : Nat) (previous : Option Token) (rest : List Token) :
      atom unbounded ⟨taken, previous, token :: rest⟩ =
        number token ⟨taken + 1, some token, rest⟩ := atom_of_rule found
  obtain ⟨node, valid⟩ | fails := number_cases token
  · rw [valid] at follows
    exact decides_of_rule follows (.pure node fun _ _ => trivial : Decides anything _ _ _)
  · rw [fails] at follows
    refine .stop [] (token :: rest) ⟨.invalidLiteral token.lexeme, token.span, [], []⟩ rfl
      ⟨Nat.le_add_left 1 _, rfl, fun other same => ?_⟩ possible
    obtain ⟨others, rfl⟩ := List.head?_eq_some_iff.mp same
    exact follows taken previous others

theorem atom_predictive (foreseen : Foreseen k) :
    Predictive (k + 1) begins anything (atom unbounded) := by
  have possible : Completable begins anything (atom unbounded) [] := by
    refine ⟨[Predictive.sample .identifier], _, by simp [Predictive.sample],
      (reads_name rfl .atom).mono fun h _ => ?_, fun _ _ _ => by simp [Predictive.sample]⟩
    cases h <;> rfl
  refine ⟨fun c left => ?_, possible⟩
  obtain ⟨taken, previous, _ | ⟨token, rest⟩⟩ := c
  · exact .expects .expression (fun other same => by rw [List.head?_eq_none_iff.mp same]; rfl) possible
  have shorter : rest.length < k := Nat.lt_of_succ_lt_succ left
  have taking {q : Parser Node} {B : Follow} (found : atomOf? unbounded token = some q)
      (predictive : Predictive k B anything q) :
      Decides begins anything (atom unbounded) ⟨taken, previous, token :: rest⟩ :=
    decides_of_rule (fun _ _ _ => atom_of_rule found)
      (predictive.decides ⟨taken + 1, some token, rest⟩ shorter)
  cases found : atomOf? unbounded token with
  | none =>
    refine .expects .expression (fun other same => ?_) possible
    obtain ⟨others, rfl⟩ := List.head?_eq_some_iff.mp same
    exact atom_of_none found
  | some q =>
    have taking {B : Follow} (predictive : Predictive k B anything q) := taking found predictive
    have kept := found
    unfold atomOf? at found
    split at found <;> cases found
    · exact number_decides kept possible
    · exact number_decides kept possible
    · exact taking (.pure _)
    · exact taking (.pure _)
    · exact taking (group_predictive foreseen)
    · exact taking (list_predictive foreseen token.span)
    · exact taking (dictionary_predictive foreseen token.span)
    · exact taking (ifElse_predictive foreseen token.span)
    · exact taking (whileLoop_predictive foreseen token.span)
    · exact taking (forLoop_predictive foreseen token.span)
    · exact taking (function_predictive foreseen token.span)

theorem call_predictive (foreseen : Foreseen k) (callee : Node) :
    Predictive k (just .rightParen) anything (call unbounded callee) := by
  have args : Predictive k (just .rightParen) (just .rightParen)
      (itemsBefore .rightParen unbounded.expression) :=
    itemsBefore_predictive (fun k => (unbounded_track .stay k).expression.tracks)
      Node.relocate_stay foreseen.expression (by decide)
  exact args.bind (fun _ => closing (by decide) _) (by decide)

theorem index_predictive (foreseen : Foreseen k) (base : Node) :
    Predictive k begins anything (index unbounded base) := by
  have rest : Predictive k begins anything (do
      let index ← unbounded.expression
      let last ← take .rightBracket .indexEnd
      return (index, base.span.upTo last.span)) :=
    foreseen.expression.bind (fun _ => closing (by decide) _) (by decide)
  have other (c : Cursor) (here : c.kind? ≠ some .rightBracket) : index unbounded base c = (do
      let index ← unbounded.expression
      let last ← take .rightBracket .indexEnd
      return (index, base.span.upTo last.span) : Parser (Node × Span)) c :=
    (bind_of_ok (peekKind?_eq c)).trans (congrFun (if_neg here) c)
  have closed (c : Cursor) (here : c.kind? = some .rightBracket) : index unbounded base c =
      .error ⟨.expected .indexExpression "']'", c.faultSpan, [], []⟩ c :=
    ((bind_of_ok (peekKind?_eq c)).trans (congrFun (if_pos here) c)).trans
      ((bind_of_ok (get_eq c)).trans (bind_of_error (fail_eq _ _ c)))
  have possible : Completable begins anything (index unbounded base) [] :=
    rest.possible.switch (· ≠ some .rightBracket) other (by decide)
  refine ⟨fun c left => ?_, possible⟩
  by_cases here : c.kind? = some .rightBracket
  · refine .fault (.expected .indexExpression "']'") rfl (fun tokens same => closed _ ?_) possible
    exact (congrArg (Option.map Token.kind) same).trans here
  · exact (rest.decides c left).switch (· ≠ some .rightBracket) other here (by decide)

theorem postfixBody_predictive (foreseen : Foreseen k) {again : Node → Parser Node}
    (further : ∀ node, Predictive k ends ends (again node)) (node : Node) :
    Predictive (k + 1) ends ends (postfixBody unbounded again node) := by
  have open' : ∀ kind, (kind == .leftParen || kind == .leftBracket || kind == .dot) = true →
      Level.sum.continues kind = true := by
    intro kind want
    simp only [Bool.or_eq_true] at want
    simp only [Level.continues, Bool.or_eq_true, Bool.and_eq_true]
    exact .inr ⟨rfl, .inl want⟩
  have equal (kind : TokenKind) (want : (kind == .equal) = true) : Level.sum.continues kind = true := by
    simp only [Level.continues, Bool.or_eq_true, Bool.and_eq_true]
    exact .inr ⟨rfl, .inr want⟩
  have assign (index : Node) (equals : Token) : Predictive k begins ends (do
      let value ← operandOf equals unbounded.expression
      return Node.setIndex node index value (node.span.upTo value.span)) :=
    .bind (.operandOf equals foreseen.expression) (fun _ => .pure _) fun _ => id
  refine .option (fun opening _ => (?_ : Predictive k anything ends _)) (.pure node)
    fun _ => Level.ends_any open'
  dsimp only
  split
  · exact ((call_predictive foreseen node).bind further fun _ _ => trivial).inside
  · apply ((index_predictive foreseen node).bind _ fun _ _ => trivial).inside
    · exact ends
    · rintro ⟨index, span⟩
      exact .option_le (fun equals _ => assign index equals) (further _)
        fun _ => Level.ends_any equal
  · exact ((Predictive.take (by decide) _).bind (fun name => further _) fun _ _ => trivial).inside

theorem postfixLoop_predictive (foreseen : Foreseen k) (node : Node) :
    Predictive (k + 1) ends ends (postfixLoop unbounded node) := by
  refine .loop postfixLoop_eq (fun node => ?_) (fun j below further node => ?_) node
  · exact .nil ((postfixLoop_nothing node).mono fun _ => Level.ends_of_le (by decide)) fun _ => id
  · exact postfixBody_predictive (foreseen.less (Nat.le_of_lt_succ below)) further node

theorem chained_predictive (foreseen : Foreseen k) :
    Predictive (k + 1) begins ends (chained unbounded) := by
  rw [chained_eq]
  exact .bind (atom_predictive foreseen) (postfixLoop_predictive foreseen) fun _ _ => trivial

theorem unary_predictive (foreseen : Foreseen k) :
    Predictive (k + 1) begins ends (unary unbounded) :=
  .option (fun sign _ => .bind (.operandOf sign foreseen.unary) (fun _ => .pure _) fun _ => id)
    (chained_predictive foreseen) (by decide)

theorem chain_predictive {p q : Level} (tight : Level.sum.rank ≤ p.rank)
    (predictive : Predictive (k + 1) begins ends (rule unbounded q)) :
    Predictive (k + 1) begins ends (chain p.operator? (rule unbounded q)) := by
  have known (h : Option TokenKind) (inside : ends h) :
      h.any (fun kind => (p.operator? kind).isSome) = false :=
    Level.ends_any (fun _ => Level.continues_operator) (Level.ends_of_le tight inside)
  have nothing (left : Node) :
      Reads (chainLoop p.operator? (rule unbounded q) left) [] left ends := by
    rw [rule_unrolls]
    exact (Reads.pure left ends).missed fun tail follows => known _ follows
  rw [chain_eq]
  refine predictive.bind (fun left => ?_) fun _ => id
  refine .loop (rule_unrolls q _) (fun left => .nil (nothing left) fun _ => id)
    (fun j below further left => ?_) left
  have operand := predictive.less (Nat.le_of_lt below)
  exact .option (fun sign _ => .bind (.operandOf sign operand) (fun _ => further _) fun _ => id)
    (.pure left) known

theorem power_predictive (foreseen : Foreseen k) :
    Predictive (k + 1) begins ends (power unbounded) :=
  chain_predictive (p := .power) (q := .sign) (by decide) (unary_predictive foreseen)

theorem product_predictive (foreseen : Foreseen k) :
    Predictive (k + 1) begins ends (product unbounded) :=
  chain_predictive (p := .product) (q := .power) (by decide) (power_predictive foreseen)

theorem comparison_predictive (foreseen : Foreseen k) :
    Predictive (k + 1) begins ends (comparison unbounded) :=
  .option (fun sign _ =>
      .bind (.operandOf sign foreseen.comparison) (fun _ => .pure _) fun _ => id)
    (chain_predictive (p := .comparison) (q := .product) (by decide) (product_predictive foreseen)) (by decide)

theorem expression_predictive (foreseen : Foreseen k) :
    Predictive (k + 1) begins ends (expression unbounded) :=
  chain_predictive (p := .sum) (q := .comparison) (by decide) (comparison_predictive foreseen)

/-! ### Statements -/

theorem separators_ends : ∀ h, separators h → ends h := by decide

theorem declaration_predictive (foreseen : Foreseen k) (keyword : Token) :
    Predictive k begins ends (declaration unbounded keyword) := by
  apply (Predictive.take (by decide) _).bind
  · intro name
    apply (Predictive.take (by decide) _).bind
    · intro _
      exact foreseen.expression.bind (fun _ => .pure _) fun _ => id
    · exact fun _ _ => trivial
  · exact fun _ _ => trivial

theorem assignment_predictive (foreseen : Foreseen k) (name sign : Token) :
    Predictive k begins ends (assignment unbounded name sign) :=
  .bind (.operandOf sign foreseen.expression) (fun _ => .pure _) fun _ => id

theorem exitFunction_eq (r : Rules) (first : Span) :
    exitFunction r first = peekKind? >>= fun h =>
      if separators h then return .exitFunction none first else do
        let value ← r.expression
        return .exitFunction (some value) (first.upTo value.span) := by
  have split : ∀ h, separators h ↔ h = some .newline ∨ endsBlock h = true := by
    rintro (_ | kind)
    · decide
    · cases kind with
      | keyword k => cases k <;> decide
      | _ => decide
  funext c
  rw [exitFunction, bind_of_ok (peekKind?_eq c), bind_of_ok (peekKind?_eq c), atBlockEnd_bind]
  by_cases newline : c.kind? = some .newline
  · rw [if_pos newline, if_pos ((split _).mpr (.inl newline))]
  · rw [if_neg newline, bind_of_ok (peekKind?_eq c)]
    by_cases close : endsBlock c.kind? = true
    · rw [if_pos close, if_pos ((split _).mpr (.inr close))]
    · rw [if_neg close, if_neg fun inside => ((split _).mp inside).elim newline close]

theorem exitFunction_predictive (foreseen : Foreseen k) (first : Span) :
    Predictive k separators separators (exitFunction unbounded first) := by
  have value : Predictive k begins separators (do
      let value ← unbounded.expression
      return Node.exitFunction (some value) (first.upTo value.span)) :=
    .bind foreseen.expression (fun _ => .pure _) separators_ends
  rw [exitFunction_eq]
  exact (Predictive.pure _).choice value separators (fun _ yes => if_pos yes)
    (fun _ no => if_neg no) (fun _ => id) (by decide) fun _ => id

theorem importAlias_predictive : Predictive k begins anything importAlias :=
  .option_le (fun _ _ => .pure _) (.bind (.take (by decide) _) (fun _ => .pure _) fun _ _ => trivial)
    (by decide)

theorem importNamed_predictive (name : Node) (first : Span) :
    Predictive k begins separators (do
      let (binding, last) ← importAlias
      return Node.importModule name (some binding) (first.upTo last)) :=
  importAlias_predictive.bind (fun _ => .pure _) fun _ _ => trivial

theorem importModule_predictive (foreseen : Foreseen k) (first : Span) :
    Predictive k begins separators (importModule unbounded first) :=
  .bind foreseen.expression
    (fun name => .option_le (fun _ _ => importNamed_predictive name first) (.pure _) (by decide))
    separators_ends

theorem assigns_congr {token : Token} {u v : List Token} (same : first? u = first? v) :
    assigns (token :: u) = assigns (token :: v) := by
  cases u <;> cases v <;> simp_all [assigns]

theorem assigns_of_other {token : Token} (u : List Token) (other : token.kind ≠ .identifier) :
    assigns (token :: u) = false := by
  cases u <;> simp [assigns, other]

theorem assigns_of_separator {token : Token} {u : List Token} (follows : separators (first? u)) :
    assigns (token :: u) = false := by
  cases u with
  | nil => rfl
  | cons sign u =>
    have unsigned : ∀ h, separators h → (h.bind assignmentOperator?).isSome = false := by decide
    simp [assigns, show (assignmentOperator? sign.kind).isSome = false from unsigned _ follows]

theorem reads_name_statement {token : Token} (name : token.kind = .identifier) :
    Reads (statement unbounded) [token] (.access token.lexeme token.span) separators := by
  intro c tail follows
  refine (statement_of_other ?_ (assigns_of_separator follows)).trans
    (reads_name name .sum c tail (separators_ends _ follows))
  rintro _ ⟨⟩
  exact statementOf?_identifier name

/-- Behind a first token, no assignment sign follows in front of what follows there now, or of a
separator. -/
theorem assigns_behind {token : Token} {w tail other : List Token}
    (unsigned : assigns (token :: (w ++ tail)) = false)
    (follows : w = [] → first? other = first? tail ∨ separators (first? other)) :
    assigns (token :: (w ++ other)) = false := by
  by_cases empty : w = []
  · subst empty
    obtain same | ends := follows rfl
    · rw [← unsigned]
      exact assigns_congr same
    · exact assigns_of_separator ends
  · rw [← unsigned]
    exact assigns_congr (first?_append empty other tail)

/-- Where no other statement begins, an expression is a statement. The second token is looked at
only behind a name, and a name by itself is an expression. -/
theorem expression_statement {c : Cursor}
    (missing : ∀ token, c.rest.head? = some token → statementOf? unbounded token = none)
    (unsigned : assigns c.rest = false) (decides : Decides begins ends (expression unbounded) c)
    (possible : Completable begins separators (statement unbounded) []) :
    Decides begins separators (statement unbounded) c := by
  have turn {token : Token} {u : List Token} (c : Cursor)
      (none : statementOf? unbounded token = none) (plain : assigns (token :: u) = false) :
      statement unbounded (c.before (token :: u)) = expression unbounded (c.before (token :: u)) :=
    statement_of_other (by rintro _ ⟨⟩; exact none) plain
  cases decides with
  | value w tail a splits reads silent =>
    obtain _ | ⟨token, w⟩ := w
    · exact absurd (silent rfl none rfl) (by decide)
    have none := missing token (by rw [splits]; rfl)
    rw [splits] at unsigned
    refine .value (token :: w) tail a splits (fun c other follows => ?_) nofun
    rw [List.cons_append, turn c none (assigns_behind unsigned fun _ => follows)]
    exact reads c other (follows.imp_right (separators_ends _))
  | stop w tail d splits stuck completes =>
    obtain _ | ⟨token, w⟩ := w
    · refine .stop [] tail d splits ⟨stuck.room, stuck.span, fun other same => ?_⟩ possible
      rw [← stuck.fails other same]
      obtain _ | ⟨token, other⟩ := other
      · rfl
      · have head : c.rest.head? = some token := by rw [splits, List.nil_append, ← same]; rfl
        refine turn c (missing token head) (assigns_of_other other fun name => ?_)
        -- an expression is not stuck at a name
        have reads := reads_name name .sum c [] rfl
        exact nomatch reads.symm.trans (stuck.fails [token] same)
    · have none := missing token (by rw [splits]; rfl)
      rw [splits] at unsigned
      refine .stop (token :: w) tail d splits ⟨stuck.room, stuck.span, fun other same => ?_⟩ ?_
      · have alike : first? other = first? tail := congrArg (Option.map Token.kind) same
        rw [← stuck.fails other same]
        exact turn c none (assigns_behind unsigned fun _ => .inl alike)
      · by_cases short : w = [] ∧ token.kind = .identifier
        · obtain ⟨rfl, name⟩ := short
          exact ⟨[], _, List.forall_mem_nil _, reads_name_statement name, nofun⟩
        · obtain ⟨more, a, free, reads, _⟩ := completes
          refine ⟨more, a, free, fun c other follows => ?_, nofun⟩
          rw [← reads c other (separators_ends _ follows)]
          refine turn c none ?_
          by_cases empty : w = []
          · exact assigns_of_other _ fun name => short ⟨empty, name⟩
          · show assigns (token :: (w ++ more ++ other)) = false
            rw [List.append_assoc]
            exact assigns_behind unsigned fun none => absurd none empty

theorem statement_predictive (foreseen : Foreseen k) :
    Predictive (k + 1) begins separators (statement unbounded) := by
  have possible : Completable begins separators (statement unbounded) [] :=
    ⟨[Predictive.sample .identifier], _, by simp [Predictive.sample], reads_name_statement rfl,
      fun _ _ _ => by simp [Predictive.sample]⟩
  have expression := expression_predictive foreseen
  refine ⟨fun c left => ?_, possible⟩
  by_cases signed : assigns c.rest = true
  · obtain ⟨taken, previous, _ | ⟨name, _ | ⟨sign, rest⟩⟩⟩ := c
    · cases signed
    · cases signed
    · have assignment := (assignment_predictive foreseen name sign).mono (Nat.le_refl k) (fun _ => id) separators_ends
      refine .prefixed (w := [name, sign]) (by simp) rfl (fun c tail => ?_)
        (assignment.decides _ ?_)
      · exact statement_of_assigns signed
      · exact Nat.lt_of_succ_lt (Nat.lt_of_succ_lt_succ left)
  · have unsigned : assigns c.rest = false := by simpa only [Bool.not_eq_true] using signed
    have plain (missing : ∀ token, c.rest.head? = some token → statementOf? unbounded token = none) :=
      expression_statement missing unsigned (expression.decides c left) possible
    obtain ⟨taken, previous, _ | ⟨token, rest⟩⟩ := c
    · exact plain (by rintro _ ⟨⟩)
    · cases found : statementOf? unbounded token with
      | none => exact plain (by rintro _ ⟨⟩; exact found)
      | some q =>
        have taking {B : Follow} (predictive : Predictive k B separators q) :
            Decides begins separators (statement unbounded) ⟨taken, previous, token :: rest⟩ :=
          decides_of_rule (fun _ _ _ => statement_of_rule found)
            (predictive.decides ⟨taken + 1, some token, rest⟩ (Nat.lt_of_succ_lt_succ left))
        unfold statementOf? at found
        split at found <;> cases found
        · exact taking ((declaration_predictive foreseen token).mono (Nat.le_refl k) (fun _ => id) separators_ends)
        · exact taking ((declaration_predictive foreseen token).mono (Nat.le_refl k) (fun _ => id) separators_ends)
        · exact taking (exitFunction_predictive foreseen token.span)
        · exact taking (.pure _)
        · exact taking (.pure _)
        · exact taking (importModule_predictive foreseen token.span)

theorem foreseen (k : Nat) : Foreseen k := by
  induction k with
  | zero =>
    have possible {p : Parser Node} {F : Follow}
        (reads : Reads p [Predictive.sample .identifier] (.access "" (.synthetic "")) F) : Predictive 0 begins F p :=
      ⟨fun _ left => absurd left (Nat.not_lt_zero _), _, _, by simp [Predictive.sample], reads,
        fun _ _ _ => by simp [Predictive.sample]⟩
    refine ⟨?_, ?_, ?_, ?_⟩
    · rw [expression_unbounded]
      exact possible (reads_name rfl .sum)
    · rw [comparison_unbounded]
      exact possible ((reads_name rfl .comparison).mono fun _ => Level.ends_of_le (by decide))
    · rw [unary_unbounded]
      exact possible ((reads_name rfl .sign).mono fun _ => Level.ends_of_le (by decide))
    · rw [statement_unbounded]
      exact possible (reads_name_statement rfl)
  | succ k ih =>
    refine ⟨?_, ?_, ?_, ?_⟩
    · rw [expression_unbounded]
      exact expression_predictive ih
    · rw [comparison_unbounded]
      exact comparison_predictive ih
    · rw [unary_unbounded]
      exact unary_predictive ih
    · rw [statement_unbounded]
      exact statement_predictive ih

/-! ### Programs -/

abbrev fileEnd : Follow := (· ∈ [none])

theorem programLoop_nothing (nodes : List Node) :
    Reads (programLoop unbounded.statement nodes) [] nodes.reverse fileEnd := by
  have real : ∀ h, fileEnd h → h ≠ some .newline := by decide
  rw [programLoop_eq]
  refine Reads.bind (w := []) (.skipNewlines (List.forall_mem_nil _)) ?_ fun tail follows => real _ follows
  refine (Reads.pure nodes.reverse fileEnd).switch fileEnd (fun c here => ?_) fun _ => id
  rw [bind_of_ok (peekKind?_eq c), List.mem_singleton.mp here]

theorem programLoop_predictive (nodes : List Node) :
    Predictive k fileEnd fileEnd (programLoop unbounded.statement nodes) := by
  refine .loop programLoop_eq (fun nodes => .nil (programLoop_nothing nodes) fun _ => id)
    (fun j below further nodes => ?_) nodes
  have line := (statementLine_predictive (foreseen (j + 1)).statement).bind_taken (h := none)
    (fun node => further (node :: nodes)) (by decide) (by decide) (by decide)
  refine .skip ((Predictive.pure nodes.reverse).choice line fileEnd (fun h here => ?_)
    (fun h other => ?_) (fun _ => id) (by decide) fun _ => id) (by decide)
  · rw [List.mem_singleton.mp here]
  · cases h with
    | none => exact absurd (List.mem_singleton_self none) other
    | some _ => rfl

theorem program_predictive : Predictive k fileEnd fileEnd program := programLoop_predictive []

end BasicScript.Grammar
