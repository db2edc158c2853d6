import BasicScript.Proofs.Node.Tracking

/-! Every rule of the grammar tracks itself on relocated tokens. Two unfoldings of the rules track
each other as long as neither comes to its end, so there is one record of rules that all of them
approximate, and it is the record in which its own rules are called. -/

set_option autoImplicit false

namespace BasicScript

variable {g : Relocation} {k : Nat}

/-- As long as fewer than `k` tokens are left, `q` does on relocated tokens what `p` does, and takes
a token when it has a value. -/
def Takes {α β : Type} (g : Relocation) (k : Nat) (f : α → β) (p : Parser α) (q : Parser β) : Prop :=
  ∀ j < k, Tracks g (j + 1) j f p q

namespace Takes

variable {α β : Type} {f : α → β} {p : Parser α} {q : Parser β}

theorem mono {j : Nat} (takes : Takes g k f p q) (less : j ≤ k) : Takes g j f p q :=
  fun i below => takes i (Nat.lt_of_lt_of_le below less)

theorem tracks (takes : Takes g k f p q) : Tracks g k k f p q := by
  cases k with
  | zero => exact .none_left
  | succ k => exact (takes k (Nat.lt_succ_self k)).mono (Nat.le_refl _) (Nat.le_succ k)

end Takes

structure Rules.Track (g : Relocation) (k : Nat) (r s : Rules) : Prop where
  expression : Takes g k (Node.relocate g) r.expression s.expression
  comparison : Takes g k (Node.relocate g) r.comparison s.comparison
  unary : Takes g k (Node.relocate g) r.unary s.unary
  statement : Takes g k (Node.relocate g) r.statement s.statement

theorem Rules.Track.mono {r s : Rules} {j : Nat} (track : Track g k r s) (less : j ≤ k) :
    Track g j r s :=
  ⟨track.expression.mono less, track.comparison.mono less, track.unary.mono less,
    track.statement.mono less⟩

namespace Grammar

open BasicScript.Parser

variable {r s : Rules} {α β : Type} {f : α → β} {p : Parser α} {q : Parser β}

/-! ### Separators and blocks -/

theorem atKeyword_tracks (keywords : List Keyword) :
    Tracks g k k id (atKeyword keywords) (atKeyword keywords) := by
  refine .look fun kind => ?_
  split <;> exact .pure rfl

theorem atBlockEnd_tracks : Tracks g k k id atBlockEnd atBlockEnd := by
  refine .look fun kind => ?_
  cases kind with
  | none => exact .pure rfl
  | some _ => exact atKeyword_tracks blockEnds

theorem statementLine_takes {p q : Parser Node} (takes : Takes g k (Node.relocate g) p q) :
    Takes g k (Node.relocate g) (statementLine p) (statementLine q) := by
  intro j below
  refine .bind (takes j below) fun node => .takeIf_le fun separator => ?_
  cases separator with
  | some _ => exact .pure rfl
  | none =>
    refine .bind atBlockEnd_tracks fun ends => ?_
    cases ends with
    | true => exact .pure rfl
    | false => exact .expected _

theorem blockBody_round (track : Rules.Track g k r s) (terminators : List Keyword)
    (opener : Keyword) :
    Tracks.Round g k (List.map (Node.relocate g)) (List.map (Node.relocate g))
      (blockBody r terminators opener) (blockBody s terminators opener) := by
  intro j below again again' further body
  refine .bind .skipNewlines fun _ => .bind (atKeyword_tracks terminators) fun ends => ?_
  cases ends with
  | true => exact .pure (by simp)
  | false =>
    refine .look fun kind => ?_
    cases kind with
    | none => exact .expected _
    | some _ =>
      refine .bind (statementLine_takes track.statement j below) fun node => ?_
      exact (further (node :: body)).mono (Nat.le_refl _) (Nat.le_succ j)

theorem block_tracks (track : Rules.Track g k r s) (terminators : List Keyword)
    (opener : Keyword) :
    Tracks g k k (List.map (Node.relocate g)) (block r terminators opener)
      (block s terminators opener) := by
  rw [block_eq, block_eq]
  exact .loop _ _ (blockBody_round track terminators opener) []

theorem itemsBody_round (item : ∀ j ≤ k, Tracks g j j f p q) :
    Tracks.Round g k (List.map f) (List.map f) (itemsBody p) (itemsBody q) := by
  intro j below again again' further items
  refine .bind (item _ below) fun a => .bind .skipNewlines fun _ => .takeIf (fun _ _ => ?_) ?_
  · exact (Tracks.bind .skipNewlines fun _ => further (a :: items)).mono (Nat.le_refl _)
      (Nat.le_succ j)
  · exact .pure (by simp)

theorem itemsLoop_tracks (item : ∀ j ≤ k, Tracks g j j f p q) :
    Tracks g k k (List.map f) (itemsLoop p []) (itemsLoop q []) :=
  .loop _ _ (itemsBody_round item) []

theorem itemsBefore_tracks (close : TokenKind) (item : ∀ j ≤ k, Tracks g j j f p q) :
    Tracks g k k (List.map f) (itemsBefore close p) (itemsBefore close q) := by
  rw [itemsBefore_eq, itemsBefore_eq]
  exact .bind .skipNewlines fun _ => .look fun _ => .ite (.pure rfl) (itemsLoop_tracks item)

/-! ### Atoms -/

theorem number_tracks (token : Token) :
    Tracks g k k (Node.relocate g) (number token) (number (token.relocate g)) := by
  unfold number
  simp only [Token.literal_relocate]
  split
  · exact .pure rfl
  · exact .pure rfl
  · exact .fail nofun (.inl rfl)

theorem relocate_string (token : Token) :
    (string token).relocate g = string (token.relocate g) := by
  unfold string
  simp only [Token.literal_relocate]
  split <;> rfl

theorem group_tracks (track : Rules.Track g k r s) :
    Tracks g k k (Node.relocate g) (group r) (group s) :=
  .bind .skipNewlines fun _ => .bind track.expression.tracks fun _ =>
    .bind .skipNewlines fun _ => .bind (.take_le _ _) fun _ => .pure rfl

theorem relocate_defaultStep (bound : Node) :
    (defaultStep bound).relocate g = defaultStep (bound.relocate g) := by
  simp only [defaultStep, Node.relocate, Node.span_relocate, g.single]

theorem range_tracks (track : Rules.Track g k r s) (first : Span) (start : Node) :
    Tracks g k k (Node.relocate g) (range r first start)
      (range s (g.span first) (start.relocate g)) := by
  have value := track.expression.tracks
  have close (stop step : Node) : Tracks g k k (Node.relocate g)
      (take .rightBracket .rangeEnd >>= fun last =>
        pure (.range start stop step (first.upTo last.span)))
      (take .rightBracket .rangeEnd >>= fun last =>
        pure (.range (start.relocate g) (stop.relocate g) (step.relocate g)
          ((g.span first).upTo last.span))) :=
    .bind (.take_le _ _) fun _ => .pure (by simp only [Node.relocate, g.upTo, Token.span_relocate])
  refine .bind value fun stop => .bind .skipNewlines fun _ => .takeIf_le fun arrow => ?_
  cases arrow with
  | none => exact .bind (.pure (relocate_defaultStep stop)) (close stop)
  | some _ =>
    exact .bind value fun step => .bind .skipNewlines fun _ => .bind (.pure rfl) (close stop)

theorem list_tracks (track : Rules.Track g k r s) (first : Span) :
    Tracks g k k (Node.relocate g) (list r first) (list s (g.span first)) := by
  rw [list_eq, list_eq]
  have close (items : List Node) : Tracks g k k (Node.relocate g)
      (take .rightBracket .listEnd >>= fun last => pure (.list items (first.upTo last.span)))
      (take .rightBracket .listEnd >>= fun last =>
        pure (.list (items.map (Node.relocate g)) ((g.span first).upTo last.span))) :=
    .bind (.take_le _ _) fun _ =>
      .pure (by simp only [Node.relocate, Node.relocateAll_eq_map, g.upTo, Token.span_relocate])
  refine .bind .skipNewlines fun _ => .takeIf_le fun last => ?_
  cases last with
  | some last => exact .pure (by simp only [Node.relocate, Node.relocateAll, g.upTo]; rfl)
  | none =>
    refine .bind track.expression.tracks fun start => .bind .skipNewlines fun _ =>
      .takeIf_le fun arrow => ?_
    cases arrow with
    | some _ => exact range_tracks track first start
    | none =>
      refine .takeIf_le fun comma => ?_
      cases comma with
      | none =>
        exact .bind (f := List.map (Node.relocate g)) (.pure rfl) fun items =>
          close (start :: items)
      | some _ =>
        have items := itemsLoop_tracks fun j less => (track.mono less).expression.tracks
        exact .bind .skipNewlines fun _ => .bind items fun items => close (start :: items)

theorem entry_tracks (track : Rules.Track g k r s) :
    Tracks g k k (Node.relocateEntry g) (entry r) (entry s) :=
  .bind track.expression.tracks fun _ => .bind (.take_le _ _) fun _ =>
    .bind .skipNewlines fun _ => .bind track.expression.tracks fun _ => .pure rfl

theorem dictionary_tracks (track : Rules.Track g k r s) (first : Span) :
    Tracks g k k (Node.relocate g) (dictionary r first) (dictionary s (g.span first)) :=
  .bind (itemsBefore_tracks _ fun _ less => entry_tracks (track.mono less)) fun _ =>
    .bind (.take_le _ _) fun _ =>
      .pure (by simp only [Node.relocate, Node.relocateEntries_eq_map, g.upTo, Token.span_relocate])

theorem branch_tracks (track : Rules.Track g k r s) (terminators : List Keyword)
    (opener : Keyword) :
    Tracks g k k (Node.relocateBranch g) (branch r terminators opener)
      (branch s terminators opener) :=
  .bind track.expression.tracks fun _ => .bind (.take_le _ _) fun _ =>
    .bind (block_tracks track terminators opener) fun _ =>
      .pure (by simp only [Node.relocateBranch, Node.relocateAll_eq_map])

theorem elseIfsBody_round (track : Rules.Track g k r s) :
    Tracks.Round g k (List.map (Node.relocateBranch g)) (List.map (Node.relocateBranch g))
      (elseIfsBody r) (elseIfsBody s) := by
  intro j below again again' further branches
  refine .takeIf (fun _ _ => ?_) (.pure (by simp))
  have branch := branch_tracks (track.mono (Nat.le_of_lt below)) blockEnds .elseIf
  exact (Tracks.bind branch fun branch => further (branch :: branches)).mono (Nat.le_refl _)
    (Nat.le_succ j)

theorem ifElse_tracks (track : Rules.Track g k r s) (first : Span) :
    Tracks g k k (Node.relocate g) (ifElse r first) (ifElse s (g.span first)) := by
  rw [ifElse_eq, ifElse_eq]
  refine .bind (branch_tracks track blockEnds .if) fun head =>
    .bind (.loop _ _ (elseIfsBody_round track) [head]) fun branches => .takeIf_le fun other => ?_
  have close (otherwise : Option (List Node)) : Tracks g k k (Node.relocate g)
      (blockClose .if >>= fun last => pure (.ifElse branches otherwise (first.upTo last.span)))
      (blockClose .if >>= fun last =>
        pure (.ifElse (branches.map (Node.relocateBranch g)) (otherwise.map (Node.relocateAll g))
          ((g.span first).upTo last.span))) :=
    .bind (.take_le _ _) fun _ => .pure (by
      simp only [Node.relocate, Node.relocateBranches_eq_map, Node.relocateBlock_eq_map, g.upTo,
        Token.span_relocate])
  cases other with
  | none => exact .bind (f := Option.map (Node.relocateAll g)) (.pure rfl) close
  | some _ =>
    refine .bind (.map (block_tracks track [.end] .else) fun body => ?_) close
    simp only [Option.map, Node.relocateAll_eq_map]

theorem whileLoop_tracks (track : Rules.Track g k r s) (first : Span) :
    Tracks g k k (Node.relocate g) (whileLoop r first) (whileLoop s (g.span first)) :=
  .bind (branch_tracks track [.end] .while) fun _ => .bind (.take_le _ _) fun _ =>
    .pure (by simp only [Node.relocate, g.upTo, Token.span_relocate])

theorem forLoop_tracks (track : Rules.Track g k r s) (first : Span) :
    Tracks g k k (Node.relocate g) (forLoop r first) (forLoop s (g.span first)) :=
  .bind (.take_le _ _) fun _ => .bind (.take_le _ _) fun _ =>
    .bind (branch_tracks track [.end] .for) fun _ => .bind (.take_le _ _) fun _ => .pure (by
      simp only [Node.relocate, g.upTo, Token.span_relocate, Token.lexeme_relocate])

theorem parameter_tracks (names : List String) :
    Tracks g (k + 1) k id (parameter names) (parameter names) :=
  .bind (.take _ _) fun _ =>
    .ite (.bind (f := id) (.fail nofun (.inl rfl)) fun _ => .pure rfl) (.pure rfl)

theorem parametersBody_round : Tracks.Round g k id id parametersBody parametersBody := by
  intro j below again again' further names
  refine .mono (.bind (parameter_tracks names) fun param => .takeIf_le fun comma => ?_)
    (Nat.le_refl _) (Nat.le_succ j)
  cases comma with
  | none => exact .pure rfl
  | some _ => exact further (param :: names)

theorem parameters_tracks : Tracks g k k id parameters parameters := by
  rw [parameters_eq]
  exact .look fun _ => .ite (.pure rfl) (.loop _ _ parametersBody_round [])

theorem function_tracks (track : Rules.Track g k r s) (first : Span) :
    Tracks g k k (Node.relocate g) (function r first) (function s (g.span first)) :=
  .takeIf_le fun name => .bind (.take_le _ _) fun _ => .bind parameters_tracks fun params =>
    .bind (.take_le _ _) fun _ => .bind (block_tracks track [.end] .function) fun body =>
      .bind (.take_le _ _) fun _ => .pure (by
        simp only [Node.relocate, Node.relocateAll_eq_map, g.upTo, Token.span_relocate,
          Option.map_map]
        rfl)

inductive TracksIf {α β : Type} (g : Relocation) (k : Nat) (f : α → β) :
    Option (Parser α) → Option (Parser β) → Prop
  | some {p : Parser α} {q : Parser β} (tracks : Tracks g k k f p q) :
    TracksIf g k f (some p) (some q)
  | none : TracksIf g k f none none

theorem atomOf?_tracks (track : Rules.Track g k r s) (token : Token) :
    TracksIf g k (Node.relocate g) (atomOf? r token) (atomOf? s (token.relocate g)) := by
  unfold atomOf?
  simp only [Token.kind_relocate]
  split
  · exact .some (number_tracks token)
  · exact .some (number_tracks token)
  · exact .some (.pure (relocate_string token))
  · exact .some (.pure rfl)
  · exact .some (group_tracks track)
  · exact .some (list_tracks track token.span)
  · exact .some (dictionary_tracks track token.span)
  · exact .some (ifElse_tracks track token.span)
  · exact .some (whileLoop_tracks track token.span)
  · exact .some (forLoop_tracks track token.span)
  · exact .some (function_tracks track token.span)
  · exact .none

theorem atom_tracks (track : Rules.Track g k r s) :
    Tracks g (k + 1) k (Node.relocate g) (atom r) (atom s) := by
  rintro ⟨taken, previous, _ | ⟨token, rest⟩⟩ left
  · exact Tracks.expected .expression ⟨taken, previous, []⟩ left
  · have rules := atomOf?_tracks track token
    generalize first : atomOf? r token = one, second : atomOf? s (token.relocate g) = other at rules
    simp only [Cursor.relocate, List.map_cons]
    cases rules with
    | some tracks =>
      rw [atom_of_rule first, atom_of_rule second]
      exact tracks ⟨taken + 1, some token, rest⟩ (Nat.lt_of_succ_lt_succ left)
    | none =>
      rw [atom_of_none first, atom_of_none second]
      exact Tracks.expected .expression ⟨taken, previous, token :: rest⟩ left

/-! ### Operators -/

theorem call_tracks (track : Rules.Track g k r s) (callee : Node) :
    Tracks g k k (Node.relocate g) (call r callee) (call s (callee.relocate g)) :=
  .bind (itemsBefore_tracks _ fun _ less => (track.mono less).expression.tracks) fun _ =>
    .bind (.take_le _ _) fun _ => .pure (by
      simp only [Node.relocate, Node.relocateAll_eq_map, Node.span_relocate, g.upTo,
        Token.span_relocate])

theorem index_tracks (track : Rules.Track g k r s) (base : Node) :
    Tracks g k k (Prod.map (Node.relocate g) g.span) (index r base)
      (index s (base.relocate g)) := by
  have more : Tracks g k k (Prod.map (Node.relocate g) g.span)
      (r.expression >>= fun index => take .rightBracket .indexEnd >>= fun last =>
        pure (index, base.span.upTo last.span))
      (s.expression >>= fun index => take .rightBracket .indexEnd >>= fun last =>
        pure (index, (base.relocate g).span.upTo last.span)) :=
    .bind track.expression.tracks fun _ => .bind (.take_le _ _) fun _ =>
      .pure (by simp only [Prod.map, Node.span_relocate, g.upTo, Token.span_relocate])
  refine .look fun _ => .ite ?_ more
  intro c left
  rw [bind_of_ok (get_eq c), bind_of_ok (get_eq _)]
  exact Tracks.bind (f := id) (.fail (by nofun) c.faultSpan_relocate) (fun _ => more) c left

theorem postfixBody_round (track : Rules.Track g k r s) :
    Tracks.Round g (k + 1) (Node.relocate g) (Node.relocate g) (postfixBody r) (postfixBody s) := by
  intro j below again again' further node
  have track := track.mono (Nat.le_of_lt_succ below)
  refine .takeIf (fun opening _ => .mono ?_ (Nat.le_refl _) (Nat.le_succ j)) (.pure rfl)
  dsimp only [Token.kind_relocate]
  split
  · exact .bind (call_tracks track node) further
  · refine .bind (index_tracks track node) fun (index, span) => .takeIf_le fun equals => ?_
    cases equals with
    | none => exact further (.getIndex node index span)
    | some equals =>
      exact .bind (.operandOf equals track.expression.tracks) fun value =>
        .pure (by simp only [Node.relocate, Node.span_relocate, g.upTo, Prod.map])
  · refine .bind (.take_le _ _) fun name => ?_
    have := further (.member node name.lexeme (node.span.upTo name.span))
    simp only [Node.relocate, g.upTo, ← Node.span_relocate] at this
    exact this

theorem chained_tracks (track : Rules.Track g k r s) :
    Tracks g (k + 1) k (Node.relocate g) (chained r) (chained s) := by
  rw [chained_eq, chained_eq]
  exact .bind (atom_tracks track) fun node =>
    .loop _ _ ((postfixBody_round track).mono (Nat.le_succ k)) node

theorem unary_takes (track : Rules.Track g k r s) :
    Takes g (k + 1) (Node.relocate g) (unary r) (unary s) := by
  intro j below
  have track := track.mono (Nat.le_of_lt_succ below)
  refine .takeIf (fun sign _ => ?_) (chained_tracks track)
  exact .bind (.operandOf sign track.unary.tracks) fun _ => .pure (Node.relocate_signed ..)

section Chains

variable {operator? : TokenKind → Option BinaryOperator} {p q : Parser Node}

theorem chainBody_round (takes : Takes g k (Node.relocate g) p q) :
    Tracks.Round g k (Node.relocate g) (Node.relocate g) (chainBody operator? p)
      (chainBody operator? q) := by
  intro j below again again' further left
  have takes := takes.mono (Nat.le_of_lt below)
  refine .takeIf (fun sign _ => .mono ?_ (Nat.le_refl _) (Nat.le_succ j)) (.pure rfl)
  refine .bind (.operandOf sign takes.tracks) fun right => ?_
  have := further (.infixed left ((operator? sign.kind).getD .add) right)
  rw [Node.relocate_infixed] at this
  exact this

theorem chain_takes (takes : Takes g k (Node.relocate g) p q) :
    Takes g k (Node.relocate g) (chain operator? p) (chain operator? q) := by
  intro j below
  rw [chain_eq, chain_eq]
  exact .bind (takes j below) fun left =>
    .loop _ _ ((chainBody_round takes).mono (Nat.le_of_lt below)) left

end Chains

theorem power_takes (track : Rules.Track g k r s) :
    Takes g (k + 1) (Node.relocate g) (power r) (power s) := chain_takes (unary_takes track)

theorem product_takes (track : Rules.Track g k r s) :
    Takes g (k + 1) (Node.relocate g) (product r) (product s) := chain_takes (power_takes track)

theorem comparison_takes (track : Rules.Track g k r s) :
    Takes g (k + 1) (Node.relocate g) (comparison r) (comparison s) := by
  intro j below
  have less := track.mono (Nat.le_of_lt_succ below)
  refine .takeIf (fun sign _ => ?_) (chain_takes (product_takes track) j below)
  exact .bind (.operandOf sign less.comparison.tracks) fun _ => .pure (Node.relocate_signed ..)

theorem expression_takes (track : Rules.Track g k r s) :
    Takes g (k + 1) (Node.relocate g) (expression r) (expression s) :=
  chain_takes (comparison_takes track)

/-! ### Statements -/

theorem declaration_tracks (track : Rules.Track g k r s) (keyword : Token) :
    Tracks g k k (Node.relocate g) (declaration r keyword) (declaration s (keyword.relocate g)) :=
  .bind (.take_le _ _) fun _ => .bind (.take_le _ _) fun _ =>
    .bind track.expression.tracks fun _ => .pure (by
      simp only [Node.relocate, Node.span_relocate, g.upTo]
      rfl)

theorem assignment_tracks (track : Rules.Track g k r s) (name sign : Token) :
    Tracks g k k (Node.relocate g) (assignment r name sign)
      (assignment s (name.relocate g) (sign.relocate g)) :=
  .bind (.operandOf sign track.expression.tracks) fun _ => .pure (by
    simp only [Node.relocate, Node.span_relocate, g.upTo]
    rfl)

theorem exitFunction_tracks (track : Rules.Track g k r s) (first : Span) :
    Tracks g k k (Node.relocate g) (exitFunction r first) (exitFunction s (g.span first)) := by
  refine .look fun _ => .ite (.pure rfl) (.bind atBlockEnd_tracks fun _ => .ite (.pure rfl) ?_)
  exact .bind track.expression.tracks fun _ =>
    .pure (by simp only [Node.relocate, Node.span_relocate, g.upTo])

theorem importAlias_tracks :
    Tracks g k k (Prod.map id g.span) importAlias importAlias := by
  refine .takeIf_le fun star => ?_
  cases star with
  | some _ => exact .pure rfl
  | none => exact .bind (.take_le _ _) fun _ => .pure rfl

theorem importModule_tracks (track : Rules.Track g k r s) (first : Span) :
    Tracks g k k (Node.relocate g) (importModule r first) (importModule s (g.span first)) := by
  refine .bind track.expression.tracks fun name => .takeIf_le fun named => ?_
  cases named with
  | none => exact .pure (by simp only [Node.relocate, Node.span_relocate, g.upTo])
  | some _ =>
    exact .bind importAlias_tracks fun _ => .pure (by simp only [Node.relocate, g.upTo]; rfl)

theorem statementOf?_tracks (track : Rules.Track g k r s) (token : Token) :
    TracksIf g k (Node.relocate g) (statementOf? r token) (statementOf? s (token.relocate g)) := by
  unfold statementOf?
  simp only [Token.kind_relocate]
  split
  · exact .some (declaration_tracks track token)
  · exact .some (declaration_tracks track token)
  · exact .some (exitFunction_tracks track token.span)
  · exact .some (.pure rfl)
  · exact .some (.pure rfl)
  · exact .some (importModule_tracks track token.span)
  · exact .none

@[simp] theorem assigns_relocate (tokens : List Token) :
    assigns (tokens.map (Token.relocate g)) = assigns tokens := by
  obtain _ | ⟨_, _ | ⟨_, _⟩⟩ := tokens <;> rfl

theorem statement_takes (track : Rules.Track g k r s) :
    Takes g (k + 1) (Node.relocate g) (statement r) (statement s) := by
  intro j below c left
  have less := track.mono (Nat.le_of_lt_succ below)
  by_cases signed : assigns c.rest = true
  · obtain ⟨taken, previous, _ | ⟨name, _ | ⟨sign, rest⟩⟩⟩ := c
    · cases signed
    · cases signed
    · rw [statement_of_assigns signed]
      refine Eq.subst (statement_of_assigns ?_).symm
        (assignment_tracks less name sign ⟨taken + 2, some sign, rest⟩ ?_)
      · exact signed
      · exact Nat.lt_of_succ_lt (Nat.lt_of_succ_lt_succ left)
  · have unsigned : assigns c.rest = false := by simpa only [Bool.not_eq_true] using signed
    obtain ⟨taken, previous, _ | ⟨token, rest⟩⟩ := c
    · exact expression_takes track j below ⟨taken, previous, []⟩ left
    · have rules := statementOf?_tracks less token
      generalize first : statementOf? r token = one,
        second : statementOf? s (token.relocate g) = other at rules
      cases rules with
      | some tracks =>
        rw [statement_of_rule first]
        exact Eq.subst (statement_of_rule second).symm
          (tracks ⟨taken + 1, some token, rest⟩ (Nat.lt_of_succ_lt_succ left))
      | none =>
        rw [statement_of_other (by simpa using first) unsigned,
          statement_of_other (by simpa [Cursor.relocate] using second)
            (by simpa only [Cursor.rest_relocate, assigns_relocate])]
        exact expression_takes track j below _ left

theorem next_track (track : Rules.Track g k r s) : Rules.Track g (k + 1) (next r) (next s) :=
  ⟨expression_takes track, comparison_takes track, unary_takes track, statement_takes track⟩

/-- Two unfoldings of the rules track each other until the tokens outnumber one of them. -/
theorem unfolded_track {n m : Nat} (enough : k ≤ n) (plenty : k ≤ m) :
    Rules.Track g k (unfolded n) (unfolded m) := by
  induction k generalizing n m with
  | zero => exact ⟨nofun, nofun, nofun, nofun⟩
  | succ k ih =>
    obtain ⟨n, rfl⟩ := Nat.exists_eq_add_of_le' enough
    obtain ⟨m, rfl⟩ := Nat.exists_eq_add_of_le' plenty
    exact next_track (ih (Nat.le_add_left k n) (Nat.le_add_left k m))

theorem programBody_round {p q : Parser Node} (takes : Takes g k (Node.relocate g) p q) :
    Tracks.Round g k (List.map (Node.relocate g)) (List.map (Node.relocate g)) (programBody p)
      (programBody q) := by
  intro j below again again' further nodes
  refine .bind .skipNewlines fun _ => .look fun kind => ?_
  cases kind with
  | none => exact .pure (by simp)
  | some _ =>
    refine .bind (statementLine_takes takes j below) fun node => ?_
    exact (further (node :: nodes)).mono (Nat.le_refl _) (Nat.le_succ j)

end Grammar

end BasicScript
