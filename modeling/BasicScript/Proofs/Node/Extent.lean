import BasicScript.Proofs.Node.EndOfFile
import BasicScript.Proofs.Node.Span

/-! Where the parser puts its nodes. A parser that starts behind some index takes tokens that lie
behind it, and the nodes that it answers lie between that index and the end of the last token taken.
-/

set_option autoImplicit false

namespace BasicScript

namespace Cursor

def reached (c : Cursor) : Nat := (c.previous.map fun token => token.span.stop.index).getD 0

/-- The tokens in front of the cursor lie one behind the other in the text, and behind those that
have been taken. -/
def Faces (c : Cursor) (file : SourceFile) : Prop :=
  Span.InOrder file c.reached file.text.length (c.rest.map Token.span)

variable {c : Cursor} {file : SourceFile}

theorem Faces.advance {token : Token} {rest : List Token} {taken : Nat} {previous : Option Token}
    (faces : Faces ⟨taken, previous, token :: rest⟩ file) (taken' : Nat) :
    Faces ⟨taken', some token, rest⟩ file ∧
      Span.InOrder file (reached ⟨taken, previous, token :: rest⟩) token.span.stop.index
        [token.span] := by
  have first := faces.head
  have isIn := first.isIn _ (List.mem_singleton_self _)
  exact ⟨faces.tail, .singleton isIn (first.above _ (List.mem_singleton_self _)) (Nat.le_refl _)⟩

theorem Faces.skipNewlines (faces : c.Faces file) :
    c.skipNewlines.Faces file ∧ c.reached ≤ c.skipNewlines.reached := by
  obtain ⟨taken, previous, rest⟩ := c
  show (skipNewlines.go rest taken previous).Faces file ∧ _ ≤ reached (skipNewlines.go rest taken previous)
  induction rest generalizing taken previous with
  | nil => exact ⟨faces, Nat.le_refl _⟩
  | cons token rest ih =>
    by_cases newline : token.kind = .newline
    · obtain ⟨behind, between⟩ := faces.advance (taken + 1)
      rw [Cursor.skipNewlines.go, if_pos newline]
      obtain ⟨faces, further⟩ := ih _ _ behind
      exact ⟨faces, Nat.le_trans between.le further⟩
    · rw [Cursor.skipNewlines.go, if_neg newline]
      exact ⟨faces, Nat.le_refl _⟩

end Cursor

def Yields {α : Type} (file : SourceFile) (lo : Nat) (p : Parser α) (Q : α → Nat → Prop) : Prop :=
  ∀ ⦃c : Cursor⦄, c.Faces file → c.reached = lo → ∀ ⦃a : α⦄ ⦃d : Cursor⦄, p c = .ok a d →
    d.Faces file ∧ lo ≤ d.reached ∧ Q a d.reached

namespace Yields

variable {α β : Type} {file : SourceFile} {lo : Nat} {p : Parser α} {Q : α → Nat → Prop}
  {R : β → Nat → Prop}

theorem pure {a : α} (holds : Q a lo) : Yields file lo (Pure.pure a) Q := by
  rintro c faces rfl _ _ ⟨⟩
  exact ⟨faces, Nat.le_refl _, holds⟩

theorem bind {r : α → Parser β} (first : Yields file lo p Q)
    (rest : ∀ a mid, lo ≤ mid → Q a mid → Yields file mid (r a) R) :
    Yields file lo (p >>= r) R := by
  intro c faces start b d done
  obtain ⟨a, mid, found, done⟩ := ok_of_bind done
  obtain ⟨faces, further, holds⟩ := first faces start found
  obtain ⟨faces, more, holds⟩ := rest a mid.reached further holds faces rfl done
  exact ⟨faces, Nat.le_trans further more, holds⟩

theorem mono {Q' : α → Nat → Prop} (yields : Yields file lo p Q)
    (more : ∀ a hi, lo ≤ hi → Q a hi → Q' a hi) : Yields file lo p Q' := by
  intro c faces start a d done
  obtain ⟨faces, further, holds⟩ := yields faces start done
  exact ⟨faces, further, more a _ further holds⟩

theorem map {f : α → β} (yields : Yields file lo p fun a => R (f a)) : Yields file lo (f <$> p) R := by
  rw [map_eq_pure_bind]
  exact .bind yields fun _ _ _ holds => .pure holds

theorem ite {P : Prop} [Decidable P] {p' : Parser α} (yes : Yields file lo p Q)
    (no : Yields file lo p' Q) : Yields file lo (if P then p else p') Q := by
  split
  · exact yes
  · exact no

theorem fail {fault : Fault} {span : Span} : Yields file lo (Parser.fail fault span) Q := by
  rintro c _ _ _ _ ⟨⟩

theorem expected {what : Expected} : Yields file lo (Parser.expected what) Q := by
  rintro c _ _ _ _ ⟨⟩

theorem look {r : Option TokenKind → Parser β} (rest : ∀ kind, Yields file lo (r kind) R) :
    Yields file lo (Parser.peekKind? >>= r) R := by
  intro c faces start b d done
  rw [bind_of_ok (Parser.peekKind?_eq c)] at done
  exact rest _ faces start done

theorem rounds {r : Nat → Parser β} (rest : ∀ n, Yields file lo (r n) R) :
    Yields file lo (Parser.rounds >>= r) R := by
  intro c faces start b d done
  rw [bind_of_ok (Parser.rounds_eq c)] at done
  exact rest _ faces start done

theorem skip {q : Unit → Parser β} (rest : ∀ mid, lo ≤ mid → Yields file mid (q ()) R) :
    Yields file lo (Parser.skipNewlines >>= q) R := by
  rintro c faces rfl b d done
  rw [bind_of_ok (Parser.skipNewlines_eq c)] at done
  obtain ⟨faces, further⟩ := faces.skipNewlines
  obtain ⟨faces, more, holds⟩ := rest _ further faces rfl done
  exact ⟨faces, Nat.le_trans further more, holds⟩

theorem takeIf? {wanted : TokenKind → Bool} : Yields file lo (Parser.takeIf? wanted)
    fun found hi => ∀ token ∈ found, Span.InOrder file lo hi [token.span] := by
  rintro c faces rfl found d done
  by_cases unwanted : c.kind?.any wanted = false
  · rw [Parser.takeIf?_of_other unwanted] at done
    cases done
    exact ⟨faces, Nat.le_refl _, fun _ none => absurd none (Option.not_mem_none _)⟩
  · obtain ⟨taken, previous, _ | ⟨token, rest⟩⟩ := c
    · exact absurd rfl unwanted
    · rw [Parser.takeIf?_of_wanted (by simpa [Cursor.kind?] using unwanted)] at done
      cases done
      obtain ⟨faces, between⟩ := faces.advance (taken + 1)
      refine ⟨faces, between.le, ?_⟩
      rintro _ ⟨⟩
      exact between

theorem take {kind : TokenKind} {what : Expected} : Yields file lo (Parser.take kind what)
    fun token hi => Span.InOrder file lo hi [token.span] := by
  refine .bind takeIf? fun found mid _ between => ?_
  cases found with
  | some token => exact .pure (between token rfl)
  | none => exact .expected

theorem operandOf {sign : Token} (yields : Yields file lo p Q) :
    Yields file lo (Parser.operandOf sign p) Q := by
  intro c faces start a d done
  cases found : p c with
  | ok b e =>
    rw [Parser.operandOf_of_ok found] at done
    cases done
    exact yields faces start found
  | error e after =>
    rw [Parser.operandOf_of_error found] at done
    cases done

end Yields

def Lays {α : Type} (file : SourceFile) (p : Parser α) (nodes : α → List Node) : Prop :=
  ∀ lo, Yields file lo p fun a hi => Node.InOrder file lo hi (nodes a)

structure RulesOver.Lay (file : SourceFile) (r : Rules) : Prop where
  expression : Lays file r.expression ([·])
  comparison : Lays file r.comparison ([·])
  unary : Lays file r.unary ([·])
  statement : Lays file r.statement ([·])

namespace Grammar

open BasicScript.Parser

variable {file : SourceFile} {r : Rules} {α : Type} {start mid lo : Nat} {first : Span}

/-! ### Separators and blocks -/

theorem atKeyword_yields (keywords : List Keyword) :
    Yields file lo (atKeyword keywords) fun _ _ => True := by
  refine .look fun kind => ?_
  split <;> exact .pure trivial

theorem atBlockEnd_yields : Yields file lo atBlockEnd fun _ _ => True := by
  refine .look fun kind => ?_
  cases kind with
  | none => exact .pure trivial
  | some _ => exact atKeyword_yields blockEnds

theorem statementLine_lays {p : Parser Node} (statement : Lays file p ([·])) :
    Lays file (statementLine p) ([·]) := by
  refine fun lo => .bind (statement lo) fun node mid _ order => .bind .takeIf? fun separator hi le _ => ?_
  cases separator with
  | some _ => exact .pure (order.mono (Nat.le_refl _) le)
  | none =>
    exact .bind atBlockEnd_yields fun _ _ further _ =>
      .ite (.pure (order.mono (Nat.le_refl _) (Nat.le_trans le further))) .expected

theorem blockFrom_yields (rules : r.Lay file) (terminators : List Keyword) (opener : Keyword) (n : Nat)
    {body : List Node} (order : Node.InOrder file start lo body.reverse) :
    Yields file lo (blockFrom r terminators opener n body) fun nodes hi => Node.InOrder file start hi nodes := by
  induction n generalizing lo body with
  | zero => exact .expected
  | succ n ih =>
    refine .skip fun mid le => .bind (atKeyword_yields terminators) fun _ hi further _ => ?_
    have order := order.mono (Nat.le_refl _) (Nat.le_trans le further)
    refine .ite (.pure order) (.look fun kind => ?_)
    cases kind with
    | none => exact .expected
    | some _ =>
      refine .bind (statementLine_lays rules.statement hi) fun node _ _ line => ih ?_
      rw [List.reverse_cons]
      exact order.append line

theorem block_lays (rules : r.Lay file) (terminators : List Keyword) (opener : Keyword) :
    Lays file (block r terminators opener) id :=
  fun lo => .rounds fun n => blockFrom_yields rules terminators opener n (.nil (Nat.le_refl lo))

theorem itemsFrom_yields {item : Parser α} {nodes : α → List Node} (lays : Lays file item nodes)
    (n : Nat) {items : List α} (order : Node.InOrder file start lo (items.reverse.flatMap nodes)) :
    Yields file lo (itemsFrom item n items) fun items hi =>
      Node.InOrder file start hi (items.flatMap nodes) := by
  induction n generalizing lo items with
  | zero => exact .expected
  | succ n ih =>
    refine .bind (lays lo) fun a mid _ inner => .skip fun behind le => .bind .takeIf? fun comma hi further _ => ?_
    have order : Node.InOrder file start mid ((a :: items).reverse.flatMap nodes) := by
      rw [List.reverse_cons, List.flatMap_append, List.flatMap_singleton]
      exact order.append inner
    have order := order.mono (Nat.le_refl _) (Nat.le_trans le further)
    cases comma with
    | none => exact .pure order
    | some _ => exact .skip fun _ le => ih (order.mono (Nat.le_refl _) le)

theorem itemsBefore_lays {item : Parser α} {nodes : α → List Node} (close : TokenKind)
    (lays : Lays file item nodes) : Lays file (itemsBefore close item) (·.flatMap nodes) :=
  fun _ => .skip fun _ le => .look fun _ => .ite (.pure (.nil le))
    (.rounds fun n => itemsFrom_yields lays n (.nil le))

/-! ### Atoms -/

theorem number_yields {token : Token} (opens : Span.InOrder file start lo [token.span]) :
    Yields file lo (number token) fun node hi => Node.InOrder file start hi [node] := by
  unfold number
  split
  · exact .pure (.leaf opens rfl rfl)
  · exact .pure (.leaf opens rfl rfl)
  · exact .fail

theorem string_inOrder {token : Token} (opens : Span.InOrder file start lo [token.span]) :
    Node.InOrder file start lo [string token] := by
  unfold string
  split
  · exact .leaf opens rfl rfl
  · exact .leaf opens rfl rfl

theorem group_lays (rules : r.Lay file) : Lays file (group r) ([·]) :=
  fun _ => .skip fun mid before => .bind (rules.expression mid) fun _ _ _ order =>
    .skip fun _ le => .bind .take fun _ _ further _ =>
      .pure (order.mono before (Nat.le_trans le further))

/-- The step that a range does not name stands at the end of its bound. -/
theorem defaultStep_inOrder {bound : Node} (order : Node.InOrder file start lo [bound]) :
    Node.InOrder file start lo [bound, defaultStep bound] := by
  have spans := order.spans
  have isIn := spans.isIn bound.span (List.mem_singleton_self _)
  have inner : Node.InOrder file start bound.span.stop.index [bound] :=
    ⟨.singleton isIn (spans.above _ (List.mem_singleton_self _)) (Nat.le_refl _), order.encloses⟩
  refine inner.append (.leaf (.singleton ?_ (Nat.le_refl _) ?_) rfl rfl)
  · exact ⟨isIn.ofFile, isIn.stop, isIn.stop, Nat.le_refl _⟩
  · exact spans.below bound.span (List.mem_singleton_self _)

theorem range_yields (rules : r.Lay file) (opens : Span.InOrder file start mid [first]) {from' : Node}
    (order : Node.InOrder file mid lo [from']) :
    Yields file lo (range r first from') fun node hi => Node.InOrder file start hi [node] := by
  have close {stop step : Node} {behind : Nat} (bounds : Node.InOrder file lo behind [stop, step]) :
      Yields file behind (take .rightBracket .rangeEnd >>= fun last =>
        pure (.range from' stop step (first.upTo last.span)))
        fun node hi => Node.InOrder file start hi [node] :=
    .bind .take fun _ _ _ closes => .pure (.closed opens (order.append bounds) closes rfl rfl)
  refine .bind (rules.expression lo) fun stop _ _ bound => .skip fun _ le =>
    .bind .takeIf? fun arrow behind further _ => ?_
  have bound := bound.mono (Nat.le_refl lo) (Nat.le_trans le further)
  cases arrow with
  | none =>
    exact .bind (Q := fun step hi => Node.InOrder file lo hi [stop, step])
      (.pure (defaultStep_inOrder bound)) fun _ _ _ => close
  | some _ =>
    exact .bind (rules.expression behind) fun step _ _ order => .skip fun _ le =>
      .bind (Q := fun step hi => Node.InOrder file lo hi [stop, step])
        (.pure (bound.append (order.mono (Nat.le_refl _) le))) fun _ _ _ => close

theorem list_yields (rules : r.Lay file) (opens : Span.InOrder file start lo [first]) :
    Yields file lo (list r first) fun node hi => Node.InOrder file start hi [node] := by
  refine .skip fun mid before => .bind .takeIf? fun last behind _ found => ?_
  have opens := opens.mono (Nat.le_refl start) before
  cases last with
  | some last => exact .pure (.closed opens (.nil (Nat.le_refl mid)) (found last rfl) rfl rfl)
  | none =>
    have opens := opens.mono (Nat.le_refl start) ‹mid ≤ behind›
    refine .bind (rules.expression behind) fun item _ _ order => .skip fun _ le =>
      .bind .takeIf? fun arrow here further _ => ?_
    have order := order.mono (Nat.le_refl _) (Nat.le_trans le further)
    have close {items : List Node} {there : Nat} (more : Node.InOrder file here there items) :
        Yields file there (take .rightBracket .listEnd >>= fun last =>
          pure (.list (item :: items) (first.upTo last.span)))
          fun node hi => Node.InOrder file start hi [node] :=
      .bind .take fun _ _ _ closes => .pure (.closed opens (order.append more) closes rfl rfl)
    cases arrow with
    | some _ => exact range_yields rules opens order
    | none =>
      refine .bind .takeIf? fun comma _ le _ => ?_
      cases comma with
      | none =>
        exact .bind (Q := fun items hi => Node.InOrder file here hi items) (.pure (.nil le))
          fun _ _ _ => close
      | some _ =>
        refine .skip fun _ further => .rounds fun n =>
          .bind (itemsFrom_yields rules.expression n (.nil (Nat.le_trans le further))) fun items _ _ more => ?_
        rw [List.flatMap_singleton'] at more
        exact close more

theorem entry_lays (rules : r.Lay file) :
    Lays file (entry r) fun entry => [entry.1, entry.2] :=
  fun lo => .bind (rules.expression lo) fun _ _ _ key => .bind .take fun _ _ le _ =>
    .skip fun behind further => .bind (rules.expression behind) fun _ _ _ value =>
      .pure ((key.mono (Nat.le_refl _) (Nat.le_trans le further)).append value)

theorem dictionary_yields (rules : r.Lay file) (opens : Span.InOrder file start lo [first]) :
    Yields file lo (dictionary r first) fun node hi => Node.InOrder file start hi [node] :=
  .bind (itemsBefore_lays _ (entry_lays rules) lo) fun _ _ _ entries => .bind .take fun _ _ _ closes =>
    .pure (.closed opens entries closes rfl rfl)

theorem branch_lays (rules : r.Lay file) (terminators : List Keyword) (opener : Keyword) :
    Lays file (branch r terminators opener) fun branch => branch.1 :: branch.2 :=
  fun lo => .bind (rules.expression lo) fun _ _ _ condition => .bind .take fun _ behind le _ =>
    .bind (block_lays rules terminators opener behind) fun _ _ _ body =>
      .pure ((condition.mono (Nat.le_refl _) le).append body)

theorem elseIfsFrom_yields (rules : r.Lay file) (n : Nat) {branches : List (Node × List Node)}
    (order : Node.InOrder file start lo (branches.reverse.flatMap fun branch => branch.1 :: branch.2)) :
    Yields file lo (elseIfsFrom r n branches) fun branches hi =>
      Node.InOrder file start hi (branches.flatMap fun branch => branch.1 :: branch.2) := by
  induction n generalizing lo branches with
  | zero => exact .pure order
  | succ n ih =>
    refine .bind .takeIf? fun other mid le _ => ?_
    have order := order.mono (Nat.le_refl _) le
    cases other with
    | none => exact .pure order
    | some _ =>
      refine .bind (branch_lays rules blockEnds .elseIf mid) fun branch _ _ inner => ih ?_
      rw [List.reverse_cons, List.flatMap_append, List.flatMap_singleton]
      exact order.append inner

theorem ifElse_yields (rules : r.Lay file) (opens : Span.InOrder file start lo [first]) :
    Yields file lo (ifElse r first) fun node hi => Node.InOrder file start hi [node] := by
  refine .bind (branch_lays rules blockEnds .if lo) fun head _ _ order => .rounds fun n =>
    .bind (elseIfsFrom_yields rules n (by simpa using order)) fun branches _ _ order =>
      .bind .takeIf? fun other behind le _ => ?_
  have order := order.mono (Nat.le_refl _) le
  have close {otherwise : Option (List Node)} {there : Nat}
      (inner : Node.InOrder file behind there (otherwise.getD [])) :
      Yields file there (blockClose .if >>= fun last =>
        pure (.ifElse branches otherwise (first.upTo last.span)))
        fun node hi => Node.InOrder file start hi [node] :=
    .bind .take fun _ _ _ closes => .pure (.closed opens (order.append inner) closes rfl rfl)
  cases other with
  | none =>
    exact .bind (Q := fun otherwise hi => Node.InOrder file behind hi (otherwise.getD []))
      (.pure (.nil (Nat.le_refl _))) fun _ _ _ => close
  | some _ =>
    exact .bind (Q := fun otherwise hi => Node.InOrder file behind hi (otherwise.getD []))
      (.map (block_lays rules [.end] .else behind)) fun _ _ _ => close

theorem whileLoop_yields (rules : r.Lay file) (opens : Span.InOrder file start lo [first]) :
    Yields file lo (whileLoop r first) fun node hi => Node.InOrder file start hi [node] :=
  .bind (branch_lays rules [.end] .while lo) fun _ _ _ inner => .bind .take fun _ _ _ closes =>
    .pure (.closed opens inner closes rfl rfl)

theorem forLoop_yields (rules : r.Lay file) (opens : Span.InOrder file start lo [first]) :
    Yields file lo (forLoop r first) fun node hi => Node.InOrder file start hi [node] := by
  refine .bind .take fun item _ _ named => .bind .take fun _ behind le _ =>
    .bind (branch_lays rules [.end] .for behind) fun (iterable, body) _ _ inner =>
      .bind .take fun last _ _ closes => .pure ?_
  have named := named.mono (Nat.le_refl _) le
  have order : Span.InOrder file start _
      (first :: (item.span :: (iterable :: body).map Node.span) ++ [last.span]) :=
    opens.append (named.append (inner.spans.append closes))
  exact .upTo order rfl ((List.sublist_append_left _ _).cons _) inner.encloses

theorem parametersFrom_yields (n : Nat) (names : List String) :
    Yields file lo (parametersFrom n names) fun _ _ => True := by
  induction n generalizing lo names with
  | zero => exact .expected
  | succ n ih =>
    refine .bind .take fun param _ _ _ => .ite (.bind (Q := fun _ _ => True) .fail fun _ _ _ _ => ?_) ?_
    all_goals
      refine .bind .takeIf? fun comma _ _ _ => ?_
      cases comma with
      | none => exact .pure trivial
      | some _ => exact ih (param.lexeme :: names)

theorem parameters_yields : Yields file lo parameters fun _ _ => True :=
  .look fun _ => .ite (.pure trivial) (.rounds fun n => parametersFrom_yields n [])

theorem function_yields (rules : r.Lay file) (opens : Span.InOrder file start lo [first]) :
    Yields file lo (function r first) fun node hi => Node.InOrder file start hi [node] := by
  refine .bind .takeIf? fun _ _ named _ => .bind .take fun _ _ opened _ =>
    .bind parameters_yields fun _ _ listed _ => .bind .take fun _ behind closed _ =>
      .bind (block_lays rules [.end] .function behind) fun _ _ _ inner =>
        .bind .take fun _ _ _ closes => .pure ?_
  exact .closed (opens.mono (Nat.le_refl _) (by omega)) inner closes rfl rfl

theorem atomOf?_yields (rules : r.Lay file) {token : Token}
    (opens : Span.InOrder file start lo [token.span]) {rule : Parser Node}
    (found : atomOf? r token = some rule) :
    Yields file lo rule fun node hi => Node.InOrder file start hi [node] := by
  unfold atomOf? at found
  split at found
  · cases found; exact number_yields opens
  · cases found; exact number_yields opens
  · cases found; exact .pure (string_inOrder opens)
  · cases found; exact .pure (.leaf opens rfl rfl)
  · cases found; exact (group_lays rules lo).mono fun _ _ _ order => order.mono opens.le (Nat.le_refl _)
  · cases found; exact list_yields rules opens
  · cases found; exact dictionary_yields rules opens
  · cases found; exact ifElse_yields rules opens
  · cases found; exact whileLoop_yields rules opens
  · cases found; exact forLoop_yields rules opens
  · cases found; exact function_yields rules opens
  · cases found

theorem atom_lays (rules : r.Lay file) : Lays file (atom r) ([·]) := by
  rintro lo ⟨taken, previous, _ | ⟨token, rest⟩⟩ faces rfl node d done
  · cases done
  · rw [atom_cons] at done
    obtain ⟨faces, between⟩ := faces.advance (taken + 1)
    cases found : atomOf? r token with
    | none =>
      rw [found] at done
      cases done
    | some rule =>
      rw [found] at done
      obtain ⟨faces, further, order⟩ := atomOf?_yields rules between found faces rfl done
      exact ⟨faces, Nat.le_trans between.le further, order⟩

/-! ### Operators -/

theorem call_yields (rules : r.Lay file) {callee : Node}
    (leads : Node.InOrder file start lo [callee]) :
    Yields file lo (call r callee) fun node hi => Node.InOrder file start hi [node] := by
  refine .bind (itemsBefore_lays _ rules.expression lo) fun args mid _ inner =>
    .bind .take fun _ _ _ closes => .pure ?_
  have inner : Node.InOrder file lo mid args := by simpa using inner
  exact .led leads inner.spans closes rfl (List.sublist_append_left _ _) (leads.append inner).encloses

theorem index_yields (rules : r.Lay file) {base : Node} :
    Yields file lo (index r base) fun found hi => ∃ last mid, found.2 = base.span.upTo last ∧
      Node.InOrder file lo mid [found.1] ∧ Span.InOrder file mid hi [last] := by
  have more : Yields file lo (do
      let index ← r.expression
      let last ← take .rightBracket .indexEnd
      return (index, base.span.upTo last.span)) fun found hi => ∃ last mid,
        found.2 = base.span.upTo last ∧ Node.InOrder file lo mid [found.1] ∧
          Span.InOrder file mid hi [last] :=
    .bind (rules.expression lo) fun _ mid _ inner => .bind .take fun last _ _ closes =>
      .pure ⟨last.span, mid, rfl, inner, closes⟩
  refine .look fun _ => .ite ?_ more
  intro c faces reached found d done
  rw [bind_of_ok (get_eq c)] at done
  cases done

theorem postfixFrom_yields (rules : r.Lay file) (n : Nat) {node : Node}
    (order : Node.InOrder file start lo [node]) :
    Yields file lo (postfixFrom r n node) fun node hi => Node.InOrder file start hi [node] := by
  induction n generalizing lo node with
  | zero => exact .pure order
  | succ n ih =>
    refine .bind .takeIf? fun opening mid le _ => ?_
    have order := order.mono (Nat.le_refl _) le
    cases opening with
    | none => exact .pure order
    | some opening =>
      dsimp only
      split
      · exact .bind (call_yields rules order) fun _ _ _ order => ih order
      -- the index may turn out to be one that is assigned to; then the chain ends here
      · refine .bind (index_yields rules) fun (index, span) here _ found => ?_
        obtain ⟨last, behind, rfl, inner, closes⟩ := found
        refine .bind .takeIf? fun equals there le _ => ?_
        have closes := closes.mono (Nat.le_refl _) le
        cases equals with
        | none =>
          exact ih (.led order inner.spans closes rfl (List.sublist_append_left _ _)
            (order.append inner).encloses)
        | some equals =>
          refine .bind (.operandOf (rules.expression there)) fun value _ _ assigned => .pure ?_
          have inner := inner.mono (Nat.le_refl _) closes.le
          exact .led order inner.spans assigned.spans rfl (List.Sublist.refl _)
            ((order.append inner).append assigned).encloses
      · exact .bind .take fun name _ _ closes => ih (.led order (.nil (Nat.le_refl _)) closes rfl
          (List.sublist_append_left [_] _) order.encloses)

theorem chained_lays (rules : r.Lay file) : Lays file (chained r) ([·]) :=
  fun lo => .bind (atom_lays rules lo) fun _ _ _ order => .rounds fun n =>
    postfixFrom_yields rules n order

theorem unary_lays (rules : r.Lay file) : Lays file (unary r) ([·]) := by
  refine fun lo => .bind .takeIf? fun sign mid le found => ?_
  cases sign with
  | none => exact (chained_lays rules mid).mono fun _ _ _ order => order.mono le (Nat.le_refl _)
  | some sign =>
    exact .bind (.operandOf (rules.unary mid)) fun _ _ _ inner =>
      .pure (.opened (found sign rfl) inner rfl rfl rfl)

section Chains

variable {operator? : TokenKind → Option BinaryOperator} {operand : Parser Node}

theorem chainFrom_yields (lays : Lays file operand ([·])) (n : Nat) {left : Node}
    (order : Node.InOrder file start lo [left]) :
    Yields file lo (chainFrom operator? operand n left) fun node hi =>
      Node.InOrder file start hi [node] := by
  induction n generalizing lo left with
  | zero => exact .pure order
  | succ n ih =>
    refine .bind .takeIf? fun sign mid le _ => ?_
    have order := order.mono (Nat.le_refl _) le
    cases sign with
    | none => exact .pure order
    | some sign =>
      exact .bind (.operandOf (lays mid)) fun _ _ _ right =>
        ih (.led order (.nil (Nat.le_refl _)) right.spans rfl (List.Sublist.refl _)
          (order.append right).encloses)

theorem chain_lays (lays : Lays file operand ([·])) : Lays file (chain operator? operand) ([·]) :=
  fun lo => .bind (lays lo) fun _ _ _ order => .rounds fun n => chainFrom_yields lays n order

end Chains

theorem power_lays (rules : r.Lay file) : Lays file (power r) ([·]) := chain_lays (unary_lays rules)

theorem product_lays (rules : r.Lay file) : Lays file (product r) ([·]) :=
  chain_lays (power_lays rules)

theorem comparison_lays (rules : r.Lay file) : Lays file (comparison r) ([·]) := by
  refine fun lo => .bind .takeIf? fun sign mid le found => ?_
  cases sign with
  | none =>
    exact (chain_lays (product_lays rules) mid).mono fun _ _ _ order => order.mono le (Nat.le_refl _)
  | some sign =>
    exact .bind (.operandOf (rules.comparison mid)) fun _ _ _ inner =>
      .pure (.opened (found sign rfl) inner rfl rfl rfl)

theorem expression_lays (rules : r.Lay file) : Lays file (expression r) ([·]) :=
  chain_lays (comparison_lays rules)

/-! ### Statements -/

theorem declaration_yields (rules : r.Lay file) {keyword : Token}
    (opens : Span.InOrder file start lo [keyword.span]) :
    Yields file lo (declaration r keyword) fun node hi => Node.InOrder file start hi [node] :=
  .bind .take fun _ _ named _ => .bind .take fun _ mid signed _ =>
    .bind (rules.expression mid) fun _ _ _ inner => .pure
      (.opened (opens.mono (Nat.le_refl _) (Nat.le_trans named signed)) inner rfl rfl rfl)

theorem assignment_yields (rules : r.Lay file) {name sign : Token}
    (opens : Span.InOrder file start lo [name.span]) :
    Yields file lo (assignment r name sign) fun node hi => Node.InOrder file start hi [node] :=
  .bind (.operandOf (rules.expression lo)) fun _ _ _ inner => .pure (.opened opens inner rfl rfl rfl)

theorem exitFunction_yields (rules : r.Lay file) (opens : Span.InOrder file start lo [first]) :
    Yields file lo (exitFunction r first) fun node hi => Node.InOrder file start hi [node] := by
  refine .look fun _ => .ite (.pure (.leaf opens rfl rfl)) (.bind atBlockEnd_yields fun _ mid le _ => ?_)
  have opens := opens.mono (Nat.le_refl _) le
  exact .ite (.pure (.leaf opens rfl rfl)) (.bind (rules.expression mid) fun _ _ _ inner =>
    .pure (.opened opens inner rfl rfl rfl))

theorem importAlias_yields :
    Yields file lo importAlias fun found hi => Span.InOrder file lo hi [found.2] := by
  refine .bind .takeIf? fun star _ le found => ?_
  cases star with
  | some star => exact .pure (found star rfl)
  | none => exact .bind .take fun _ _ _ named => .pure (named.mono le (Nat.le_refl _))

theorem importModule_yields (rules : r.Lay file) (opens : Span.InOrder file start lo [first]) :
    Yields file lo (importModule r first) fun node hi => Node.InOrder file start hi [node] := by
  refine .bind (rules.expression lo) fun name _ _ inner => .bind .takeIf? fun named _ le _ => ?_
  have inner := inner.mono (Nat.le_refl _) le
  cases named with
  | none => exact .pure (.opened opens inner rfl rfl rfl)
  | some _ =>
    exact .bind importAlias_yields fun _ _ _ closes => .pure (.closed opens inner closes rfl rfl)

theorem statementOf?_yields (rules : r.Lay file) {token : Token}
    (opens : Span.InOrder file start lo [token.span]) {rule : Parser Node}
    (found : statementOf? r token = some rule) :
    Yields file lo rule fun node hi => Node.InOrder file start hi [node] := by
  unfold statementOf? at found
  split at found
  · cases found; exact declaration_yields rules opens
  · cases found; exact declaration_yields rules opens
  · cases found; exact exitFunction_yields rules opens
  · cases found; exact .pure (.leaf opens rfl rfl)
  · cases found; exact .pure (.leaf opens rfl rfl)
  · cases found; exact importModule_yields rules opens
  · cases found

theorem statement_lays (rules : r.Lay file) : Lays file (statement r) ([·]) := by
  rintro lo ⟨taken, previous, _ | ⟨token, rest⟩⟩ faces rfl node d done
  · rw [statement_of_other (by simp) rfl] at done
    exact expression_lays rules _ faces rfl done
  · obtain ⟨behind, between⟩ := faces.advance (taken + 1)
    cases found : statementOf? r token with
    | some rule =>
      rw [statement_of_rule found] at done
      obtain ⟨faces, further, order⟩ := statementOf?_yields rules between found behind rfl done
      exact ⟨faces, Nat.le_trans between.le further, order⟩
    | none =>
      by_cases signed : assigns (token :: rest) = true
      · obtain _ | ⟨sign, rest⟩ := rest
        · cases signed
        · rw [statement_of_assigns signed] at done
          obtain ⟨behind, signs⟩ := behind.advance (taken + 2)
          have opens := between.mono (Nat.le_refl _) signs.le
          obtain ⟨faces, further, order⟩ := assignment_yields rules opens behind rfl done
          exact ⟨faces, Nat.le_trans opens.le further, order⟩
      · rw [statement_of_other (by simpa using found) (by simpa using signed)] at done
        exact expression_lays rules _ faces rfl done

theorem unfolded_lay (n : Nat) : RulesOver.Lay file (unfolded n) := by
  induction n with
  | zero => exact ⟨fun _ => .expected, fun _ => .expected, fun _ => .expected, fun _ => .expected⟩
  | succ n ih => exact ⟨expression_lays ih, comparison_lays ih, unary_lays ih, statement_lays ih⟩

theorem programFrom_yields {p : Parser Node} (statement : Lays file p ([·])) (n : Nat)
    {nodes : List Node} (order : Node.InOrder file start lo nodes.reverse) :
    Yields file lo (programFrom p n nodes) fun nodes hi => Node.InOrder file start hi nodes := by
  induction n generalizing lo nodes with
  | zero => exact .pure order
  | succ n ih =>
    refine .skip fun mid le => .look fun kind => ?_
    have order := order.mono (Nat.le_refl _) le
    cases kind with
    | none => exact .pure order
    | some _ =>
      refine .bind (statementLine_lays statement mid) fun node _ _ line => ih ?_
      rw [List.reverse_cons]
      exact order.append line

end Grammar

/-! ### Texts -/

/-- The text that positions of a scanned text count in: with each tab as four blanks. -/
def SourceFile.scanned (name text : String) : SourceFile :=
  ⟨name, String.ofList (Token.expandTabs text.toList)⟩

theorem Cursor.faces_ofTokens {name text : String} {tokens : List Token}
    (scanned : Token.scan name text = .ok tokens) :
    (Cursor.ofTokens tokens).Faces (.scanned name text) := by
  let cs := Token.expandTabs text.toList
  obtain ⟨found, rfl, tiles⟩ :
      ∃ found, tokens = [].reverse ++ found ∧ Token.Tiles (.scanned name text) [] cs found :=
    Token.scanFrom_tiles scanned
  have whole : [] ++ cs = cs := List.nil_append cs
  obtain ⟨body, close, rfl, _, _, _, empty, real⟩ := tiles.closed whole
  have isIn (token : Token) (inside : token ∈ body ++ [close]) :
      token.span.IsIn (.scanned name text) := by
    have spells := tiles.spells whole token inside
    refine ⟨tiles.ofFile token inside, ?_, ?_, ?_⟩
    · simpa [SourceFile.scanned] using spells.start
    · simpa [SourceFile.scanned] using spells.stop
    · rcases List.mem_append.mp inside with inside | inside
      · exact Nat.le_of_lt (real token inside).2
      · rw [List.mem_singleton.mp inside, empty]
  have all : Span.InOrder (.scanned name text) 0 cs.length ((body ++ [close]).map Token.span) :=
    ⟨Nat.zero_le _, List.forall_mem_map.mpr isIn, fun _ _ => Nat.zero_le _,
      List.forall_mem_map.mpr fun token inside => (tiles.spells whole token inside).stop.inside,
      List.pairwise_map.mpr tiles.ordered⟩
  have front := all.sublist ((List.takeWhile_sublist fun t => decide (t.kind ≠ .eof)).map Token.span)
  exact front.mono (Nat.le_refl 0) (by simp [SourceFile.scanned, cs])

namespace Node

/-- The statements of a text lie one behind the other, and each encloses its parts. -/
theorem ofText_inOrder {name text : String} {nodes : List Node}
    (parsed : ofText name text = .ok nodes) : ∃ hi, InOrder (.scanned name text) 0 hi nodes := by
  obtain ⟨tokens, scanned, done⟩ := exists_scan_of_ofText parsed
  rw [ofTokens_eq_answer] at done
  cases run : parsing tokens with
  | error _ _ => rw [run] at done; cases done
  | ok found d =>
    rw [run] at done
    cases done
    have faces := Cursor.faces_ofTokens scanned
    obtain ⟨_, _, order⟩ := Grammar.programFrom_yields (Grammar.unfolded_lay _).statement _
      (.nil (Nat.zero_le _)) faces rfl run
    exact ⟨_, order⟩

/-- The nodes of a text lie where the text has them. Each span has lines and columns of the text and
does not end before it starts; the parts of a node, its children and the variable of a loop, lie
inside of its span and in the order of the source, each behind the one before it, and so do the
statements of the text. -/
theorem ofText_enclose {name text : String} {nodes : List Node}
    (parsed : ofText name text = .ok nodes) :
    (nodes.map span).Pairwise (fun first second => first.stop.index ≤ second.start.index) ∧
    ∀ root ∈ nodes, ∀ node, Within node root →
      node.span.IsIn (.scanned name text) ∧
      (∀ part ∈ node.parts, part.IsIn (.scanned name text) ∧
        node.span.start.index ≤ part.start.index ∧ part.stop.index ≤ node.span.stop.index) ∧
      node.parts.Pairwise fun first second => first.stop.index ≤ second.start.index := by
  obtain ⟨_, order⟩ := ofText_inOrder parsed
  refine ⟨order.spans.ordered, fun root inside node within => ?_⟩
  have encloses := order.encloses root inside node within
  exact ⟨encloses.span, fun part part_mem => ⟨encloses.parts.isIn part part_mem,
    encloses.parts.above part part_mem, encloses.parts.below part part_mem⟩,
    encloses.parts.ordered⟩

/-- The step that a range leaves out has no width, and stands where the range closes. -/
theorem ofText_enclose_loop :
    let text := "FOR x IN [1 -> 3] THEN x END"
    let ends (span : Span) := (span.start.index, span.stop.index)
    ∃ loop, ofText "main" text = .ok [loop] ∧
      loop.parts.map ends = [(4, 5), (9, 17), (23, 24)] ∧
      loop.children.map (fun child => child.parts.map ends) =
        [[(10, 11), (15, 16), (16, 16)], []] ∧
      ∀ node, Within node loop → node.span.IsIn (.scanned "main" text) := by
  intro text ends
  have shape : (ofText "main" text).toOption.map (fun nodes => nodes.map fun loop =>
      (loop.parts.map ends, loop.children.map fun child => child.parts.map ends)) =
        some [([(4, 5), (9, 17), (23, 24)], [[(10, 11), (15, 16), (16, 16)], []])] := by decide +kernel
  cases parsed : ofText "main" text with
  | error d => rw [parsed] at shape; cases shape
  | ok nodes =>
    rw [parsed] at shape
    obtain ⟨loop, rfl, found⟩ := List.map_eq_singleton_iff.mp (Option.some.inj shape)
    obtain ⟨parts, below⟩ := Prod.mk.inj found
    refine ⟨loop, rfl, parts, below, fun node within => ?_⟩
    exact ((ofText_enclose parsed).2 loop (List.mem_singleton_self _) node within).1

end Node

end BasicScript
