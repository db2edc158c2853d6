import BasicScript.Proofs.Node.Foresight
import BasicScript.Proofs.Node.Induction
import BasicScript.Proofs.Node.Spelling

/-! Parsing undoes spelling. -/

set_option autoImplicit false

namespace BasicScript

abbrev Node.bare (node : Node) : Node := node.relocate .forget

@[simp] theorem Node.span_bare (node : Node) : node.bare.span = .synthetic "" := by
  rw [Node.span_relocate]
  rfl

namespace Grammar

open BasicScript.Parser
open BasicScript.Node (commas lines enclosed parenthesized spell spellEntry spellLines spellBranch)

variable {α β ι : Type}

abbrev stops : Follow :=
  (· ∈ [none, some .newline, some .rightParen, some .rightBracket, some .rightBrace,
    some (.keyword .end), some (.keyword .else), some (.keyword .elseIf)])

abbrev commands : Follow :=
  (· ∈ [some (.keyword .let), some (.keyword .const), some (.keyword .return),
    some (.keyword .break), some (.keyword .continue), some (.keyword .import)])

theorem atomOf?_none {r : Rules} {token : Token}
    (here : stops (some token.kind) ∨ commands (some token.kind)) : atomOf? r token = none := by
  generalize same : token.kind = kind at here
  cases kind with
  | keyword k => cases k <;> first | (simp only [atomOf?, same]; done) | exact absurd here (by decide)
  | _ => first | (simp only [atomOf?, same]; done) | exact absurd here (by decide)

theorem statementOf?_none {r : Rules} {token : Token} (other : ¬commands (some token.kind)) :
    statementOf? r token = none := by
  unfold statementOf?
  split <;> first | rfl | (rename_i same; exact absurd (by rw [same]; decide) other)

variable {c : Cursor} {p : Parser α} {w v : List Token} {a : α} {F : Follow}

theorem expression_fails (here : stops c.kind? ∨ commands c.kind?) :
    ∃ d, expression unbounded c = .error d c := by
  have unsigned : ∀ h, stops h ∨ commands h →
      h.any (fun kind => (signOperator? kind).isSome) = false := by
    rintro h (here | here) <;> revert h <;> decide
  have plain : ∀ h, stops h ∨ commands h → h.any (· == .keyword .not) = false := by
    rintro h (here | here) <;> revert h <;> decide
  have missing (token : Token) (head : c.rest.head? = some token) : atomOf? unbounded token = none :=
    atomOf?_none (by rwa [Cursor.kind?, head] at here)
  have comparison : ∃ d, comparison unbounded c = .error d c := by
    rw [Grammar.comparison, take?, bind_of_ok (takeIf?_of_other (plain _ here))]
    exact chain_fails (chain_fails (chain_fails (unary_fails (unsigned _ here) missing)))
  exact chain_fails comparison

theorem statement_fails (here : stops c.kind?) : ∃ d, statement unbounded c = .error d c := by
  have missing (token : Token) (head : c.rest.head? = some token) :
      statementOf? unbounded token = none := by
    have other : ∀ h, stops h → ¬commands h := by decide
    exact statementOf?_none (other _ (by rwa [Cursor.kind?, head] at here))
  have unsigned : assigns c.rest = false := by
    obtain ⟨taken, previous, _ | ⟨token, rest⟩⟩ := c
    · rfl
    · exact assigns_of_other rest fun name => absurd (name ▸ here : stops (some .identifier)) (by decide)
  rw [statement_of_other missing unsigned]
  exact expression_fails (.inl here)

/-- What is read does not begin where nothing can begin. -/
theorem not_stops_of_reads (fails : ∀ c : Cursor, stops c.kind? → ∃ d, p c = .error d c)
    (reads : Reads p w a F) {tail : List Token} (follows : F (first? tail)) :
    ¬stops (first? (w ++ tail)) := by
  intro here
  obtain ⟨d, fails⟩ := fails (Cursor.before ⟨0, none, []⟩ (w ++ tail)) here
  exact nomatch (reads _ tail follows).symm.trans fails

theorem ne_of_not_stops {h k : Option TokenKind} (other : ¬stops h) (stop : stops k) : h ≠ k := by
  rintro rfl
  exact other stop

/-! ### Lists -/

theorem intercalate_cons {sep : Token} (first : List Token) (rest : List (List Token)) :
    [sep].intercalate (first :: rest) = first ++ rest.flatMap (sep :: ·) := by
  induction rest generalizing first with
  | nil => simp
  | cons second rest ih => rw [List.intercalate_cons_cons, ih, List.flatMap_cons, List.append_assoc]; rfl

abbrev behindEach (sep : TokenKind) (f : ι → List Token) (xs : List ι) : List Token :=
  (xs.map f).flatMap (Token.ofKind sep :: ·)

theorem first?_behindEach {sep : TokenKind} {f : ι → List Token} {G : Follow} (at' : F (some sep))
    (less : ∀ h, G h → F h) (xs : List ι) (tail : List Token) (follows : G (first? tail)) :
    F (first? (behindEach sep f xs ++ tail)) := by
  cases xs with
  | nil => exact less _ follows
  | cons x xs => exact at'

theorem reverse_cons_append (g : ι → α) (x : ι) (xs : List ι) (items : List α) :
    (g x :: items).reverse ++ xs.map g = items.reverse ++ (x :: xs).map g := by
  rw [List.reverse_cons, List.append_assoc, List.map_cons, List.singleton_append]

section Items

variable {item : Parser α} {f : ι → List Token} {g : ι → α}
  (unrolls : itemsLoop item = itemsBody item (itemsLoop item))
  (fails : ∀ c : Cursor, stops c.kind? → ∃ d, item c = .error d c)

theorem closers_ends : ∀ h, closers h → ends h := by decide

theorem ends_behindItem (f : ι → List Token) (xs : List ι) (tail : List Token)
    (follows : closers (first? tail)) : ends (first? (behindEach .comma f xs ++ tail)) :=
  first?_behindEach (by decide) closers_ends xs tail follows

include unrolls in
theorem reads_itemsLoop {x : ι} {xs : List ι} (head : Reads item (f x) (g x) ends) (items : List α)
    (behind : Reads (itemsRest (itemsLoop item) (g x :: items)) (behindEach .comma f xs)
      ((g x :: items).reverse ++ xs.map g) closers) :
    Reads (itemsLoop item items) (commas ((x :: xs).map f)) (items.reverse ++ (x :: xs).map g)
      closers := by
  rw [unrolls, List.map_cons, commas, intercalate_cons, ← reverse_cons_append]
  exact head.bind behind (ends_behindItem f xs)

include unrolls fails in
theorem reads_itemsRest {xs : List ι} (each : ∀ x ∈ xs, Reads item (f x) (g x) ends)
    (items : List α) :
    Reads (itemsRest (itemsLoop item) items) (behindEach .comma f xs) (items.reverse ++ xs.map g)
      closers := by
  induction xs generalizing items with
  | nil =>
    rw [List.map_nil, List.append_nil]
    exact itemsRest_nothing _ _
  | cons x xs ih =>
    obtain ⟨head, each⟩ := List.forall_mem_cons.mp each
    have loop := reads_itemsLoop unrolls head items (ih each (g x :: items))
    rw [List.map_cons, commas, intercalate_cons] at loop
    change Reads _ (.ofKind .comma :: (f x ++ behindEach .comma f xs)) _ _
    refine .skip (.found (.ofKind .comma) rfl (.skip loop fun tail follows => ?_)) fun _ _ => nofun
    rw [List.append_assoc]
    exact ne_of_not_stops (not_stops_of_reads fails head (ends_behindItem f xs tail follows))
      (by decide)

include unrolls fails in
theorem reads_items {close : TokenKind} (closes : closers (some close)) {xs : List ι}
    (each : ∀ x ∈ xs, Reads item (f x) (g x) ends) :
    Reads (itemsBefore close item) (commas (xs.map f)) (xs.map g) (just close) := by
  have inside : ∀ h, just close h → closers h := fun _ same => List.mem_singleton.mp same ▸ closes
  rw [itemsBefore_eq]
  cases xs with
  | nil =>
    refine .skip ((Reads.pure [] _).switch (· = some close) (fun c here => ?_) ?_) ?_
    · rw [bind_of_ok (peekKind?_eq c), if_pos here]
    · exact fun _ same => List.mem_singleton.mp same
    · rintro _ same newline
      exact absurd (inside _ same) (newline ▸ by decide)
  | cons x xs =>
    obtain ⟨head, behind⟩ := List.forall_mem_cons.mp each
    have loop := reads_itemsLoop unrolls head [] (reads_itemsRest unrolls fails behind [g x])
    have starts (tail : List Token) (follows : just close (first? tail)) :
        ¬stops (first? (commas ((x :: xs).map f) ++ tail)) := by
      rw [List.map_cons, commas, intercalate_cons, List.append_assoc]
      exact not_stops_of_reads fails head (ends_behindItem f xs tail (inside _ follows))
    refine .skip ((loop.mono inside).switch (¬stops ·) (fun c here => ?_) starts) ?_
    · have closed : ∀ h, closers h → stops h := by decide
      rw [bind_of_ok (peekKind?_eq c), if_neg (ne_of_not_stops here (closed _ closes))]
    · exact fun tail follows => ne_of_not_stops (starts tail follows) (by decide)

end Items

section Expressions

variable {f : ι → List Token} {g : ι → Node} {xs : List ι}
  (each : ∀ x ∈ xs, Reads (expression unbounded) (f x) (g x) ends)

theorem expressions_unroll : itemsLoop unbounded.expression =
    itemsBody unbounded.expression (itemsLoop unbounded.expression) :=
  itemsLoop_eq (fun k => (unbounded_track .stay k).expression.tracks) Node.relocate_stay

theorem item_fails (c : Cursor) (here : stops c.kind?) : ∃ d, unbounded.expression c = .error d c := by
  rw [expression_unbounded]
  exact expression_fails (.inl here)

include each in
theorem reads_expressions {close : TokenKind} (closes : closers (some close)) :
    Reads (itemsBefore close unbounded.expression) (commas (xs.map f)) (xs.map g) (just close) := by
  rw [← expression_unbounded] at each
  exact reads_items expressions_unroll item_fails closes each

include each in
theorem reads_call (a : Node) : Reads (call unbounded a) (commas (xs.map f) ++ [.ofKind .rightParen])
    (.call a (xs.map g) (a.span.upTo (.synthetic ""))) anything := by
  have close : Reads (do
      let last ← take .rightParen .argumentEnd
      return Node.call a (xs.map g) (a.span.upTo last.span)) [.ofKind .rightParen]
      (.call a (xs.map g) (a.span.upTo (.synthetic ""))) anything :=
    .taking (.ofKind .rightParen) _ (.pure _ _)
  exact (reads_expressions each (by decide)).bind close fun _ _ => List.mem_singleton_self _

include each in
theorem reads_listItems (first : Span) (start : Node) :
    Reads (listItems unbounded first start) (behindEach .comma f xs ++ [.ofKind .rightBracket])
      (.list (start :: xs.map g) (first.upTo (.synthetic ""))) anything := by
  have close (items : List Node) : Reads (do
      let last ← take .rightBracket .listEnd
      return Node.list (start :: items) (first.upTo last.span)) [.ofKind .rightBracket]
      (.list (start :: items) (first.upTo (.synthetic ""))) anything :=
    .taking (.ofKind .rightBracket) _ (.pure _ _)
  cases xs with
  | nil => exact (close []).missed fun _ _ => rfl
  | cons x xs =>
    rw [← expression_unbounded] at each
    obtain ⟨head, each⟩ := List.forall_mem_cons.mp each
    have behind := reads_itemsRest expressions_unroll item_fails each [g x]
    have loop := reads_itemsLoop expressions_unroll head [] behind
    rw [List.map_cons, commas, intercalate_cons] at loop
    have closed : closers (some .rightBracket) := by decide
    have items := loop.bind (r := fun items => do
      let last ← take .rightBracket .listEnd
      return Node.list (start :: items) (first.upTo last.span)) (close ((x :: xs).map g))
      fun _ _ => closed
    have real (tail : List Token) : first? (f x ++ behindEach .comma f xs ++ [.ofKind .rightBracket] ++ tail) ≠
        some .newline := by
      have follows := ends_behindItem f xs (Token.ofKind .rightBracket :: tail) closed
      rw [List.append_assoc, List.append_assoc]
      exact ne_of_not_stops (not_stops_of_reads item_fails head follows) (by decide)
    exact .found (.ofKind .comma) rfl (.skip items fun tail _ => real tail)

theorem reads_listStart {w u : List Token} {start a : Node} {first : Span}
    (reads : Reads (expression unbounded) w start ends)
    (rest : Reads (listRest unbounded first start) u a anything)
    (follows : ∀ tail, ends (first? (u ++ tail))) : Reads (list unbounded first) (w ++ u) a anything := by
  have starts (tail : List Token) : ¬stops (first? (w ++ u ++ tail)) := by
    rw [List.append_assoc]
    exact not_stops_of_reads (fun c here => expression_fails (.inl here)) reads (follows tail)
  rw [← expression_unbounded] at reads
  rw [list_eq]
  exact .skip (.missed (reads.bind rest fun tail _ => follows tail) fun tail _ =>
    unwanted_of_ne (ne_of_not_stops (starts tail) (by decide)))
    fun tail _ => ne_of_not_stops (starts tail) (by decide)

include each in
theorem reads_list (first : Span) : Reads (list unbounded first)
    (commas (xs.map f) ++ [.ofKind .rightBracket]) (.list (xs.map g) (first.upTo (.synthetic "")))
      anything := by
  cases xs with
  | nil =>
    rw [list_eq]
    exact .skip (.found (.ofKind .rightBracket) rfl (.pure _ _)) fun _ _ => nofun
  | cons x xs =>
    obtain ⟨head, each⟩ := List.forall_mem_cons.mp each
    have items := reads_listItems each first (g x)
    have starts (tail : List Token) : (· ∈ [some TokenKind.comma, some .rightBracket])
        (first? (behindEach .comma f xs ++ [.ofKind .rightBracket] ++ tail)) := by
      rw [List.append_assoc]
      exact first?_behindEach (G := just .rightBracket) (by decide) (by decide) xs _
        (List.mem_singleton_self _)
    have apart : ∀ h ∈ [some TokenKind.comma, some .rightBracket],
        ends h ∧ h ≠ some .newline ∧ h.any (· == .arrow) = false := by decide
    have rest : Reads (listRest unbounded first (g x)) _ _ anything :=
      .skip (items.missed fun tail _ => (apart _ (starts tail)).2.2)
        fun tail _ => (apart _ (starts tail)).2.1
    rw [List.map_cons, commas, intercalate_cons, List.append_assoc]
    exact reads_listStart head rest fun tail => (apart _ (starts tail)).1

theorem reads_range {u v : List Token} {start stop step : Node} (first : Span)
    (stopReads : Reads (expression unbounded) u stop ends)
    (stepReads : Reads (expression unbounded) v step ends) :
    Reads (range unbounded first start) (u ++ .ofKind .arrow :: (v ++ [.ofKind .rightBracket]))
      (.range start stop step (first.upTo (.synthetic ""))) anything := by
  have close : Reads (do
      let last ← take .rightBracket .rangeEnd
      return Node.range start stop step (first.upTo last.span)) [.ofKind .rightBracket]
      (.range start stop step (first.upTo (.synthetic ""))) anything :=
    .taking (.ofKind .rightBracket) _ (.pure _ _)
  rw [← expression_unbounded] at stopReads stepReads
  have behind := stepReads.bind (r := fun step => do
      skipNewlines
      let last ← take .rightBracket .rangeEnd
      return Node.range start stop step (first.upTo last.span))
    (.skip close fun _ _ => nofun) fun _ _ => rfl
  exact stopReads.bind (.skip (.found (.ofKind .arrow) rfl behind) fun _ _ => nofun)
    fun _ _ => rfl

theorem reads_entry {w v : List Token} {key value : Node}
    (keyReads : Reads (expression unbounded) w key ends)
    (valueReads : Reads (expression unbounded) v value ends) :
    Reads (entry unbounded) (w ++ .ofKind .colon :: v) (key, value) ends := by
  have real (tail : List Token) (follows : ends (first? tail)) : first? (v ++ tail) ≠ some .newline :=
    ne_of_not_stops (not_stops_of_reads (fun c here => expression_fails (.inl here)) valueReads follows)
      (by decide)
  rw [← expression_unbounded] at keyReads valueReads
  have behind : Reads (do
      skipNewlines
      return (key, ← unbounded.expression)) v (key, value) ends :=
    .skip valueReads.bind_pure real
  exact keyReads.bind (.taking (.ofKind .colon) _ behind) fun _ _ => rfl

theorem reads_dictionary {f : ι → List Token} {g : ι → Node × Node} {xs : List ι}
    (each : ∀ x ∈ xs, Reads (entry unbounded) (f x) (g x) ends) (first : Span) :
    Reads (dictionary unbounded first) (commas (xs.map f) ++ [.ofKind .rightBrace])
      (.dictionary (xs.map g) (first.upTo (.synthetic ""))) anything := by
  have same (entry : Node × Node) : Node.relocateEntry .stay entry = entry := by
    simp only [Node.relocateEntry, Node.relocate_stay]
  have unrolls := itemsLoop_eq (fun k => entry_tracks (unbounded_track .stay k)) same
  have fails (c : Cursor) (here : stops c.kind?) : ∃ d, entry unbounded c = .error d c := by
    obtain ⟨d, fails⟩ := item_fails c here
    exact ⟨d, bind_of_error fails⟩
  have close : Reads (do
      let last ← take .rightBrace .dictionaryEnd
      return Node.dictionary (xs.map g) (first.upTo last.span)) [.ofKind .rightBrace]
      (.dictionary (xs.map g) (first.upTo (.synthetic ""))) anything :=
    .taking (.ofKind .rightBrace) _ (.pure _ _)
  exact (reads_items unrolls fails (by decide) each).bind close fun _ _ => List.mem_singleton_self _

end Expressions

/-! ### Lines -/

section Lines

variable {w : List Token} {a : Node}

theorem reads_statementLine (reads : Reads (statement unbounded) w a separators) :
    Reads (statementLine unbounded.statement) (w ++ [.ofKind .newline]) a anything := by
  have newline : separators (some .newline) := by decide
  rw [← statement_unbounded] at reads
  exact reads.bind (.found (.ofKind .newline) rfl (.pure a _)) fun _ _ => newline

theorem lineEnds_separators : ∀ h, lineEnds h → separators h := by decide

def lineEnd (node : Node) : Parser Node := do
  match ← take? .newline with
  | some _ => return node
  | none => if ← atBlockEnd then return node else expected .statementEnd

theorem reads_lastLine (reads : Reads (statement unbounded) w a separators) :
    Reads (statementLine unbounded.statement) w a lineEnds := by
  have ends : ∀ h, lineEnds h → endsBlock h = true := by decide
  have other : ∀ h, lineEnds h → h.any (· == .newline) = false := by decide
  have close : Reads (do
      if ← atBlockEnd then return a else expected .statementEnd) [] a lineEnds := by
    rw [atBlockEnd_bind]
    refine (Reads.pure a _).switch lineEnds (fun c here => ?_) fun _ => id
    rw [bind_of_ok (peekKind?_eq c), if_pos (ends _ here)]
  rw [← statement_unbounded] at reads
  have := (reads.mono lineEnds_separators).bind (r := lineEnd)
    (close.missed fun tail follows => other _ follows) fun tail follows => follows
  rwa [List.append_nil] at this

/-- A loop that takes a line wherever a statement begins, and otherwise ends. -/
structure LoopsOverLines (loop : List Node → Parser (List Node)) (F : Follow) : Prop where
  ends : ∀ h, F h → lineEnds h
  nothing : ∀ nodes, Reads (loop nodes) [] nodes.reverse F
  line : ∀ nodes (c : Cursor), ¬stops c.kind? →
    loop nodes c = (statementLine unbounded.statement >>= fun node => loop (node :: nodes)) c

theorem LoopsOverLines.reads {loop : List Node → Parser (List Node)} {F : Follow}
    (loops : LoopsOverLines loop F) {f : ι → List Token} {g : ι → Node} {xs : List ι}
    (each : ∀ x ∈ xs, Reads (statement unbounded) (f x) (g x) separators) (nodes : List Node) :
    Reads (loop nodes) (lines (xs.map f)) (nodes.reverse ++ xs.map g) F := by
  induction xs generalizing nodes with
  | nil =>
    rw [List.map_nil, List.map_nil, List.append_nil]
    exact loops.nothing nodes
  | cons x xs ih =>
    obtain ⟨head, each⟩ := List.forall_mem_cons.mp each
    have rest := ih each (g x :: nodes)
    rw [reverse_cons_append] at rest
    have starts (v tail : List Token) (follows : separators (first? (v ++ tail))) :
        ¬stops (first? (f x ++ v ++ tail)) := by
      rw [List.append_assoc]
      exact not_stops_of_reads (fun c => statement_fails) head follows
    cases xs with
    | nil =>
      have line := (reads_lastLine head).bind (r := fun node => loop (node :: nodes)) rest
        fun tail follows => loops.ends _ follows
      refine line.switch (¬stops ·) (fun c here => loops.line nodes c here) fun tail follows => ?_
      exact starts [] tail (lineEnds_separators _ (loops.ends _ follows))
    | cons y ys =>
      have line := (reads_statementLine head).bind (r := fun node => loop (node :: nodes)) rest
        fun _ _ => trivial
      rw [List.map_cons, List.map_cons, lines, List.intercalate_cons_cons]
      refine line.switch (¬stops ·) (fun c here => loops.line nodes c here) fun tail follows => ?_
      rw [List.append_assoc (f x)]
      exact starts (.ofKind .newline :: lines _) tail (show separators (some .newline) by decide)

theorem skipNewlines_of_other {c : Cursor} (other : c.kind? ≠ some .newline) :
    skipNewlines c = .ok ⟨⟩ c := by
  have reads := Reads.skipNewlines (w := []) (List.forall_mem_nil _) c c.rest other
  rwa [List.nil_append, Cursor.before_rest, Cursor.past_nil, Cursor.before_rest] at reads

theorem bodyLoop_lines {terminators : List Keyword} (known : ∀ k ∈ terminators, k ∈ blockEnds)
    (opener : Keyword) :
    LoopsOverLines (bodyLoop unbounded terminators opener) (atEnd terminators) where
  ends := atEnd_lineEnds known
  nothing := bodyLoop_nothing known opener
  line nodes c here := by
    have close : ∀ h, lineEnds h → stops h := by decide
    have other : ¬isKeyword terminators c.kind? = true :=
      mt isKeyword_iff.mp fun inside => here (close _ (atEnd_lineEnds known _ inside))
    obtain ⟨kind, found⟩ : ∃ kind, c.kind? = some kind :=
      Option.ne_none_iff_exists'.mp (ne_of_not_stops here (by decide))
    rw [congrFun (bodyLoop_eq terminators opener) nodes, blockBody,
      bind_of_ok (skipNewlines_of_other (ne_of_not_stops here (by decide))), atKeyword_bind,
      bind_of_ok (peekKind?_eq c), if_neg other, bind_of_ok (peekKind?_eq c), found]

theorem programLoop_lines : LoopsOverLines (programLoop unbounded.statement) fileEnd where
  ends := by decide
  nothing := programLoop_nothing
  line nodes c here := by
    obtain ⟨kind, found⟩ : ∃ kind, c.kind? = some kind :=
      Option.ne_none_iff_exists'.mp (ne_of_not_stops here (by decide))
    rw [congrFun programLoop_eq nodes, programBody,
      bind_of_ok (skipNewlines_of_other (ne_of_not_stops here (by decide))),
      bind_of_ok (peekKind?_eq c), found]

theorem reads_block (terminators : List Keyword) (known : ∀ k ∈ terminators, k ∈ blockEnds)
    (opener : Keyword) {f : ι → List Token} {g : ι → Node} {xs : List ι}
    (each : ∀ x ∈ xs, Reads (statement unbounded) (f x) (g x) separators) :
    Reads (block unbounded terminators opener) (lines (xs.map f)) (xs.map g) (atEnd terminators) := by
  rw [block_eq]
  exact (bodyLoop_lines known opener).reads each []

variable {condition : Node} {f : ι → List Token} {g : ι → Node} {xs : List ι}

theorem reads_branch (terminators : List Keyword) (known : ∀ k ∈ terminators, k ∈ blockEnds)
    (opener : Keyword) (reads : Reads (expression unbounded) w condition ends)
    (each : ∀ x ∈ xs, Reads (statement unbounded) (f x) (g x) separators) :
    Reads (branch unbounded terminators opener) (w ++ .ofKeyword .then :: lines (xs.map f))
      (condition, xs.map g) (atEnd terminators) := by
  have behind : Reads (do
      let _ ← take (.keyword .then) (.thenOf opener)
      return (condition, ← block unbounded terminators opener))
      (.ofKeyword .then :: lines (xs.map f)) (condition, xs.map g) (atEnd terminators) :=
    .taking (.ofKeyword .then) _ (reads_block terminators known opener each).bind_pure
  rw [← expression_unbounded] at reads
  exact reads.bind behind fun _ _ => rfl

end Lines

theorem reads_elseIfs {f : ι → List Token} {g : ι → Node × List Node} {xs : List ι}
    (each : ∀ x ∈ xs, Reads (branch unbounded blockEnds .elseIf) (f x) (g x) (atEnd blockEnds))
    (branches : List (Node × List Node)) :
    Reads (elseIfsLoop unbounded branches) (behindEach (.keyword .elseIf) f xs)
      (branches.reverse ++ xs.map g) branchEnds := by
  induction xs generalizing branches with
  | nil =>
    rw [List.map_nil, List.append_nil]
    exact elseIfsLoop_nothing branches
  | cons x xs ih =>
    obtain ⟨head, each⟩ := List.forall_mem_cons.mp each
    have meet := first?_behindEach (f := f) (show atEnd blockEnds (some (.keyword .elseIf)) by decide)
      (show ∀ h, branchEnds h → atEnd blockEnds h by decide) xs
    rw [elseIfsLoop_eq, ← reverse_cons_append]
    exact .found (.ofKeyword .elseIf) rfl
      (head.bind (r := fun branch => elseIfsLoop unbounded (branch :: branches))
        (ih each (g x :: branches)) meet)

/-! ### Parameters -/

def parametersRest (names : List String) : Parser (List String) := do
  match ← take? .comma with
  | none => return names.reverse
  | some _ => parametersLoop names

theorem reads_parametersLoop {param : String} {names result : List String} {w : List Token}
    (new : param ∉ names) (behind : Reads (parametersRest (param :: names)) w result (just .rightParen)) :
    Reads (parametersLoop names) (.ofName param :: w) result (just .rightParen) := by
  have head : Reads (parameter names) [.ofName param] param anything :=
    fun c tail _ => parameter_of_fresh rfl new
  rw [congrFun parametersLoop_eq names]
  exact head.bind (r := fun param => parametersRest (param :: names)) behind fun _ _ => trivial

theorem reads_parametersRest {params : List String} (names : List String)
    (fresh : ∀ name ∈ params, name ∉ names)
    (distinct : params.Nodup) :
    Reads (parametersRest names) (behindEach .comma ([.ofName ·]) params) (names.reverse ++ params)
      (just .rightParen) := by
  induction params generalizing names with
  | nil =>
    have other : ∀ h, just .rightParen h → h.any (· == .comma) = false := by decide
    rw [List.append_nil]
    exact (Reads.pure names.reverse _).missed fun tail follows => other _ follows
  | cons param params ih =>
    obtain ⟨new, fresh⟩ := List.forall_mem_cons.mp fresh
    obtain ⟨unlike, distinct⟩ := List.nodup_cons.mp distinct
    have behind := ih (param :: names) (fun name inside repeated => by
      obtain rfl | repeated := List.mem_cons.mp repeated
      · exact unlike inside
      · exact fresh name inside repeated) distinct
    rw [List.reverse_cons, List.append_assoc] at behind
    exact .found (.ofKind .comma) rfl (reads_parametersLoop new behind)

theorem reads_parameters {params : List String} (distinct : params.Nodup) :
    Reads parameters (commas (params.map ([.ofName ·]))) params (just .rightParen) := by
  rw [parameters_eq]
  cases params with
  | nil =>
    refine (Reads.pure [] _).switch (· = some .rightParen) (fun c here => ?_) ?_
    · rw [bind_of_ok (peekKind?_eq c), if_pos here]
    · exact fun _ same => List.mem_singleton.mp same
  | cons param params =>
    obtain ⟨unlike, distinct⟩ := List.nodup_cons.mp distinct
    have behind := reads_parametersRest [param] (fun name inside repeated =>
      unlike (List.mem_singleton.mp repeated ▸ inside)) distinct
    rw [List.map_cons, commas, intercalate_cons]
    refine (reads_parametersLoop List.not_mem_nil behind).switch (· = some .identifier) (fun c here => ?_)
      fun _ _ => rfl
    rw [bind_of_ok (peekKind?_eq c), here]
    rfl

/-! ### Blocks as expressions -/

section Constructs

variable {w : List Token} {condition : Node} {f : ι → List Token} {g : ι → Node} {xs : List ι}
  (each : ∀ x ∈ xs, Reads (statement unbounded) (f x) (g x) separators)

include each in
theorem reads_whileLoop (reads : Reads (expression unbounded) w condition ends) (first : Span) :
    Reads (whileLoop unbounded first)
      (w ++ .ofKeyword .then :: (lines (xs.map f) ++ [.ofKeyword .end]))
      (.whileLoop condition (xs.map g) (first.upTo (.synthetic ""))) anything := by
  have close : Reads (do
      let last ← blockClose .while
      return Node.whileLoop condition (xs.map g) (first.upTo last.span)) [.ofKeyword .end]
      (.whileLoop condition (xs.map g) (first.upTo (.synthetic ""))) anything :=
    .taking (.ofKeyword .end) _ (.pure _ _)
  have branch := reads_branch [.end] (by decide) .while reads each
  have := branch.bind (r := fun branch => do
      let last ← blockClose .while
      return Node.whileLoop branch.1 branch.2 (first.upTo last.span)) close fun _ _ =>
    List.mem_singleton_self _
  rwa [List.append_assoc] at this

include each in
theorem reads_forLoop (reads : Reads (expression unbounded) w condition ends) (item : String)
    (first : Span) : Reads (forLoop unbounded first)
      (.ofName item :: .ofKeyword .in :: (w ++ .ofKeyword .then :: (lines (xs.map f) ++ [.ofKeyword .end])))
      (.forLoop item (.synthetic "") condition (xs.map g) (first.upTo (.synthetic ""))) anything := by
  have close : Reads (do
      let last ← blockClose .for
      return Node.forLoop item (.synthetic "") condition (xs.map g) (first.upTo last.span))
      [.ofKeyword .end]
      (.forLoop item (.synthetic "") condition (xs.map g) (first.upTo (.synthetic ""))) anything :=
    .taking (.ofKeyword .end) _ (.pure _ _)
  have branch := reads_branch [.end] (by decide) .for reads each
  have body := branch.bind (r := fun branch => do
      let last ← blockClose .for
      return Node.forLoop item (.synthetic "") branch.1 branch.2 (first.upTo last.span)) close fun _ _ =>
    List.mem_singleton_self _
  rw [List.append_assoc] at body
  exact .taking (.ofName item) _ (.taking (.ofKeyword .in) _ body)

include each in
theorem reads_function (name : Option String) {params : List String} (distinct : params.Nodup)
    (first : Span) : Reads (function unbounded first)
      ((name.map Token.ofName).toList ++ .ofKind .leftParen ::
        (commas (params.map ([.ofName ·])) ++ .ofKind .rightParen ::
          (lines (xs.map f) ++ [.ofKeyword .end])))
      (.function name params (xs.map g) (first.upTo (.synthetic ""))) anything := by
  have close : Reads (do
      let last ← blockClose .function
      return Node.function name params (xs.map g) (first.upTo last.span)) [.ofKeyword .end]
      (.function name params (xs.map g) (first.upTo (.synthetic ""))) anything :=
    .taking (.ofKeyword .end) _ (.pure _ _)
  have body := (reads_block [.end] (by decide) .function each).bind (r := fun body => do
      let last ← blockClose .function
      return Node.function name params body (first.upTo last.span)) close fun _ _ =>
    List.mem_singleton_self _
  have params := (reads_parameters distinct).bind (r := fun params => do
      let _ ← take .rightParen .parameterEnd
      let body ← block unbounded [.end] .function
      let last ← blockClose .function
      return Node.function name params body (first.upTo last.span))
    (.taking (.ofKind .rightParen) _ body) fun _ _ => List.mem_singleton_self _
  cases name with
  | none => exact .missed (.taking (.ofKind .leftParen) _ params) fun _ _ => rfl
  | some name => exact .found (.ofName name) rfl (.taking (.ofKind .leftParen) _ params)

include each in
theorem reads_otherwise (branches : List (Node × List Node)) (first : Span) :
    Reads (ifRest unbounded first branches)
      (.ofKeyword .else :: (lines (xs.map f) ++ [.ofKeyword .end]))
      (.ifElse branches (some (xs.map g)) (first.upTo (.synthetic ""))) anything := by
  have close : Reads (do
      let last ← blockClose .if
      return Node.ifElse branches (some (xs.map g)) (first.upTo last.span)) [.ofKeyword .end]
      (.ifElse branches (some (xs.map g)) (first.upTo (.synthetic ""))) anything :=
    .taking (.ofKeyword .end) _ (.pure _ _)
  have body : Reads (some <$> block unbounded [.end] .else >>= fun otherwise => do
      let last ← blockClose .if
      return Node.ifElse branches otherwise (first.upTo last.span))
      (lines (xs.map f) ++ [.ofKeyword .end])
      (.ifElse branches (some (xs.map g)) (first.upTo (.synthetic ""))) anything := by
    rw [map_eq_pure_bind, bind_assoc]
    exact (reads_block [.end] (by decide) .else each).bind close fun _ _ =>
      List.mem_singleton_self _
  exact .found (.ofKeyword .else) rfl body

theorem reads_ifElse {f : ι → List Token} {g : ι → Node × List Node} {x : ι} {xs : List ι}
    (each : ∀ opener, ∀ y ∈ x :: xs,
      Reads (branch unbounded blockEnds opener) (f y) (g y) (atEnd blockEnds))
    {w : List Token} {otherwise : Option (List Node)} (first : Span)
    (last : Reads (ifRest unbounded first ((x :: xs).map g)) w
      (.ifElse ((x :: xs).map g) otherwise (first.upTo (.synthetic ""))) anything)
    (closes : ∀ tail, branchEnds (first? (w ++ tail))) :
    Reads (ifElse unbounded first) ([.ofKeyword .elseIf].intercalate ((x :: xs).map f) ++ w)
      (.ifElse ((x :: xs).map g) otherwise (first.upTo (.synthetic ""))) anything := by
  have head := each .if x List.mem_cons_self
  have further := reads_elseIfs (fun y inside => each .elseIf y (List.mem_cons_of_mem x inside)) [g x]
  have meet (tail : List Token) (follows : branchEnds (first? tail)) :
      atEnd blockEnds (first? (behindEach (.keyword .elseIf) f xs ++ tail)) :=
    first?_behindEach (show atEnd blockEnds (some (.keyword .elseIf)) by decide)
      (show ∀ h, branchEnds h → atEnd blockEnds h by decide) xs tail follows
  rw [ifElse_eq, List.map_cons, intercalate_cons, List.append_assoc]
  refine head.bind (further.bind last fun tail _ => closes tail) fun tail _ => ?_
  rw [List.append_assoc]
  exact meet _ (closes tail)

end Constructs

/-! ### Atoms -/

theorem reads_group {w : List Token} {a : Node} (reads : Reads (expression unbounded) w a ends) :
    Reads (atom unbounded) (enclosed .leftParen w .rightParen) a anything := by
  have close : Reads (do
      skipNewlines
      let _ ← take .rightParen .groupEnd
      return a) [.ofKind .rightParen] a anything :=
    .skip (.taking (.ofKind .rightParen) _ (.pure a _)) fun _ _ => nofun
  have starts (tail : List Token) : first? (w ++ [.ofKind .rightParen] ++ tail) ≠ some .newline := by
    rw [List.append_assoc]
    exact ne_of_not_stops (not_stops_of_reads (fun c here => expression_fails (.inl here)) reads rfl) (by decide)
  refine reads_atom (p := group unbounded) (.ofKind .leftParen) rfl (.skip ?_ fun tail _ => starts tail)
  rw [← expression_unbounded] at reads
  exact reads.bind close fun _ _ => rfl

/-! ### What follows an atom -/

section Trails

variable {w v : List Token} {a b i : Node}

/-- Behind `w` a chain of calls, indices and attributes has put together `a`, and goes on. -/
def TrailReads (w : List Token) (a : Node) : Prop :=
  ∀ (c : Cursor) (tail : List Token), first? tail ≠ some .equal →
    chained unbounded (c.before (w ++ tail)) = postfixLoop unbounded a (c.past w tail)

def TrailTurns (a : Node) (w : List Token) (b : Node) : Prop :=
  ∀ (c : Cursor) (tail : List Token), first? tail ≠ some .equal →
    postfixLoop unbounded a (c.before (w ++ tail)) = postfixLoop unbounded b (c.past w tail)

namespace TrailReads

theorem first (reads : Reads (atom unbounded) w a anything) : TrailReads w a := by
  intro c tail _
  rw [chained_eq, bind_of_ok (reads c tail trivial)]

theorem next (trail : TrailReads w a) (turns : TrailTurns a v b)
    (opens : ∀ tail, first? (v ++ tail) ≠ some .equal) : TrailReads (w ++ v) b := by
  intro c tail other
  have turn := turns (c.past w (v ++ tail)) tail other
  rw [Cursor.past_before, Cursor.past_past] at turn
  rw [List.append_assoc, trail c (v ++ tail) (opens tail), turn]

theorem done (trail : TrailReads w a) : Reads (chained unbounded) w a Level.chained.ends := by
  intro c tail follows
  have here : first? tail ≠ some .equal := by
    intro equal
    rw [equal] at follows
    exact absurd follows (by decide)
  rw [trail c tail here]
  have reads := postfixLoop_nothing a (c.past w tail) tail follows
  rwa [List.nil_append, Cursor.past_before, Cursor.past_past, List.append_nil] at reads

theorem last {F : Follow} (trail : TrailReads w a) (reads : Reads (postfixLoop unbounded a) v b F)
    (opens : ∀ tail, first? (v ++ tail) ≠ some .equal) : Reads (chained unbounded) (w ++ v) b F := by
  intro c tail follows
  have rest := reads (c.past w (v ++ tail)) tail follows
  rw [Cursor.past_before, Cursor.past_past] at rest
  rw [List.append_assoc, trail c (v ++ tail) (opens tail), rest]

end TrailReads

theorem takeIf?_before {wanted : TokenKind → Bool} {token : Token} (want : wanted token.kind = true)
    (c : Cursor) (rest : List Token) :
    takeIf? wanted (c.before (token :: rest)) = .ok (some token) (c.past [token] rest) :=
  takeIf?_of_wanted want

theorem turns_call (reads : Reads (call unbounded a) v b anything) :
    TrailTurns a (.ofKind .leftParen :: v) b := by
  intro c tail _
  have called := reads.apply (c := c.past [.ofKind .leftParen] (v ++ tail)) rfl trivial
  rw [congrFun postfixLoop_eq a, Cursor.past_cons]
  exact (bind_of_ok (takeIf?_before rfl c (v ++ tail))).trans (bind_of_ok called)

theorem turns_member (name : String) : TrailTurns a [.ofKind .dot, .ofName name]
    (.member a name (a.span.upTo (.synthetic ""))) := by
  intro c tail _
  have named := (Reads.take (.ofName name) .attributeName anything).apply
    (c := c.past [.ofKind .dot] ([.ofName name] ++ tail)) rfl trivial
  rw [congrFun postfixLoop_eq a, Cursor.past_cons]
  exact (bind_of_ok (takeIf?_before rfl c (.ofName name :: tail))).trans (bind_of_ok named)

theorem reads_index (reads : Reads (expression unbounded) v i ends) :
    Reads (index unbounded a) (v ++ [.ofKind .rightBracket]) (i, a.span.upTo (.synthetic ""))
      anything := by
  have close : Reads (do
      let last ← take .rightBracket .indexEnd
      return (i, a.span.upTo last.span)) [.ofKind .rightBracket] (i, a.span.upTo (.synthetic ""))
      anything :=
    .taking (.ofKind .rightBracket) _ (.pure _ _)
  have starts (tail : List Token) : ¬stops (first? (v ++ [.ofKind .rightBracket] ++ tail)) := by
    rw [List.append_assoc]
    exact not_stops_of_reads (fun c here => expression_fails (.inl here)) reads rfl
  rw [← expression_unbounded] at reads
  refine (reads.bind (r := fun index => do
      let last ← take .rightBracket .indexEnd
      return (index, a.span.upTo last.span)) close fun _ _ => rfl).switch (¬stops ·) (fun c here => ?_)
    fun tail _ => starts tail
  rw [index, bind_of_ok (peekKind?_eq c), if_neg (ne_of_not_stops here (by decide))]

theorem turns_index (reads : Reads (expression unbounded) v i ends) :
    TrailTurns a (enclosed .leftBracket v .rightBracket)
      (.getIndex a i (a.span.upTo (.synthetic ""))) := by
  intro c tail other
  have indexed := (reads_index (a := a) reads).apply
    (c := c.past [.ofKind .leftBracket] (v ++ [.ofKind .rightBracket] ++ tail)) rfl trivial
  rw [congrFun postfixLoop_eq a, Cursor.past_cons]
  refine (bind_of_ok (takeIf?_before rfl c _)).trans ((bind_of_ok indexed).trans ?_)
  exact bind_of_ok (takeIf?_of_other (unwanted_of_ne (h := first? tail) other))

def indexRest (a : Node) (place : Node × Span) : Parser Node := do
  match ← take? .equal with
  | none => postfixLoop unbounded (.getIndex a place.1 place.2)
  | some equals =>
    let value ← operandOf equals unbounded.expression
    return .setIndex a place.1 value (a.span.upTo value.span)

/-- An assignment to an indexed place takes all to its right. -/
theorem reads_setIndex {x : Node} {u : List Token} (reads : Reads (expression unbounded) v i ends)
    (value : Reads (expression unbounded) u x ends) :
    Reads (postfixLoop unbounded a)
      (.ofKind .leftBracket :: (v ++ .ofKind .rightBracket :: .ofKind .equal :: u))
      (.setIndex a i x (a.span.upTo x.span)) ends := by
  have assigned : Reads (indexRest a (i, a.span.upTo (.synthetic ""))) (.ofKind .equal :: u)
      (.setIndex a i x (a.span.upTo x.span)) ends := by
    rw [← expression_unbounded] at value
    exact .found (.ofKind .equal) rfl (value.operandOf _).bind_pure
  have behind := (reads_index (a := a) reads).bind assigned fun _ _ => trivial
  rw [List.append_assoc] at behind
  rw [congrFun postfixLoop_eq a]
  exact .found (.ofKind .leftBracket) rfl behind

end Trails

/-! ### Statements -/

section Statements

variable {token : Token} {w : List Token} {a : Node} {F : Follow}

theorem reads_rule {p : Parser Node} (token : Token) (found : statementOf? unbounded token = some p)
    (reads : Reads p w a F) : Reads (statement unbounded) (token :: w) a F := by
  intro c tail follows
  have rest := reads.apply (c := c.past [token] (w ++ tail)) rfl follows
  rw [Cursor.past_cons]
  exact (statement_of_rule found).trans rest

abbrev assigners : Follow :=
  (· ∈ [some .equal, some .plusEqual, some .minusEqual, some .starEqual, some .slashEqual])

theorem assigners_of_assigns {sign : Token} (assigned : assigns (token :: sign :: w) = true) :
    token.kind = .identifier ∧ assigners (some sign.kind) := by
  simp only [assigns, Bool.and_eq_true, beq_iff_eq] at assigned
  refine assigned.imp_right fun assigned => ?_
  generalize sign.kind = kind at assigned
  cases kind <;> first | decide | cases assigned

/-- In front of an assignment sign, an expression is no more than the name. -/
theorem reads_assigned_name (name : token.kind = .identifier) :
    Reads (expression unbounded) [token] (.access token.lexeme token.span) assigners := by
  have unopened : ∀ h, assigners h →
      h.any (fun kind => kind == .leftParen || kind == .leftBracket || kind == .dot) = false := by
    decide
  have quiet (p : Level) : ∀ h, assigners h → h.any (fun kind => (p.operator? kind).isSome) = false := by
    cases p <;> decide
  have found : atomOf? unbounded token = some (pure (.access token.lexeme token.span)) := by
    simp only [atomOf?, name]
  have trail : Reads (postfixLoop unbounded (.access token.lexeme token.span)) []
      (.access token.lexeme token.span) assigners := by
    rw [postfixLoop_eq]
    exact (Reads.pure (Node.access token.lexeme token.span) _).missed fun tail follows => unopened _ follows
  have chained : Reads (chained unbounded) [token] (.access token.lexeme token.span) assigners := by
    rw [chained_eq]
    exact (reads_atom token found (.pure _ anything)).bind trail fun _ _ => trivial
  have power := reads_chain (p := .power) (q := .sign) (reads_unary chained) (quiet .power)
  have product := reads_chain (p := .product) (q := .power) power (quiet .product)
  have comparison := reads_comparison
    (reads_chain (p := .comparison) (q := .product) product (quiet .comparison))
  exact reads_chain (p := .sum) (q := .comparison) comparison (quiet .sum)

/-- What is an expression is a statement, too. -/
theorem reads_statement (reads : Reads (expression unbounded) w a ends) :
    Reads (statement unbounded) w a separators := by
  intro c tail follows
  have read := reads c tail (separators_ends _ follows)
  obtain _ | ⟨token, w⟩ := w
  · have stopped : ∀ h, separators h → stops h := by decide
    obtain ⟨d, fails⟩ := expression_fails (c := c.before tail) (.inl (stopped _ follows))
    exact nomatch read.symm.trans fails
  rw [← read]
  refine statement_of_other ?_ (Bool.eq_false_iff.mpr fun assigned => ?_)
  · rintro _ ⟨⟩
    refine statementOf?_none fun command => ?_
    obtain ⟨d, fails⟩ := expression_fails (c := c.before (token :: w ++ tail)) (.inr command)
    exact nomatch read.symm.trans fails
  · obtain _ | ⟨sign, w⟩ := w
    · exact Bool.eq_false_iff.mp (assigns_of_separator follows) assigned
    · obtain ⟨name, assigner⟩ := assigners_of_assigns assigned
      have short := reads_assigned_name name c (sign :: w ++ tail) assigner
      have same : c.past (token :: sign :: w) tail = c.past [token] (sign :: w ++ tail) :=
        (EStateM.Result.ok.inj (read.symm.trans short)).2
      have length := congrArg (List.length ∘ Cursor.rest) same
      simp only [Function.comp_apply, Cursor.rest_past, List.length_append, List.length_cons] at length
      omega

theorem reads_declaration (name : String) (constant : Bool) (value : Reads (expression unbounded) w a ends) :
    Reads (statement unbounded)
      (.ofKeyword (if constant then .const else .let) :: .ofName name :: .ofKind .equal :: w)
      (.declare name constant a (Span.upTo (.synthetic "") a.span)) separators := by
  rw [← expression_unbounded] at value
  have value := value.mono separators_ends
  cases constant with
  | false =>
    exact reads_rule (.ofKeyword .let) rfl
      (.taking (.ofName name) _ (.taking (.ofKind .equal) _ value.bind_pure))
  | true =>
    exact reads_rule (.ofKeyword .const) rfl
      (.taking (.ofName name) _ (.taking (.ofKind .equal) _ value.bind_pure))

theorem reads_assignment (name : String) {compound : Option BinaryOperator}
    (known : compound ∈ compoundOperators) (value : Reads (expression unbounded) w a ends) :
    Reads (statement unbounded) (.ofName name :: .ofKind (assignmentKind compound) :: w)
      (.assign name compound a (Span.upTo (.synthetic "") a.span)) separators := by
  have signed : assignmentOperator? (assignmentKind compound) = some compound := by
    revert compound
    decide
  rw [← expression_unbounded] at value
  have assigned : Reads (assignment unbounded (.ofName name) (.ofKind (assignmentKind compound))) w
      (.assign name ((assignmentOperator? (assignmentKind compound)).getD none) a
        (Span.upTo (.synthetic "") a.span)) separators :=
    ((value.mono separators_ends).operandOf _).bind_pure
  rw [signed] at assigned
  intro c tail follows
  have rest := assigned.apply (c := c.past [.ofName name, .ofKind (assignmentKind compound)] (w ++ tail))
    rfl follows
  rw [Cursor.past_cons, Cursor.past_cons]
  refine (statement_of_assigns ?_).trans rest
  rw [assigns]
  simp [Token.ofName, Token.ofKind, signed]

theorem reads_exitFunction_nothing : Reads (statement unbounded) [.ofKeyword .return]
    (.exitFunction none (.synthetic "")) separators := by
  refine reads_rule (.ofKeyword .return) rfl ?_
  rw [exitFunction_eq]
  refine (Reads.pure _ _).switch separators (fun c here => ?_) fun _ => id
  rw [bind_of_ok (peekKind?_eq c), if_pos here]
  rfl

theorem reads_exitFunction (value : Reads (expression unbounded) w a ends) :
    Reads (statement unbounded) (.ofKeyword .return :: w)
      (.exitFunction (some a) (Span.upTo (.synthetic "") a.span)) separators := by
  have starts (tail : List Token) (follows : separators (first? tail)) : ¬stops (first? (w ++ tail)) :=
    not_stops_of_reads (fun c here => expression_fails (.inl here)) value (separators_ends _ follows)
  have stopped : ∀ h, separators h → stops h := by decide
  refine reads_rule (.ofKeyword .return) rfl ?_
  rw [exitFunction_eq]
  rw [← expression_unbounded] at value
  refine ((value.mono separators_ends).bind_pure (f := fun value =>
    Node.exitFunction (some value) (Span.upTo (.synthetic "") value.span))).switch (¬stops ·)
    (fun c here => ?_) starts
  rw [bind_of_ok (peekKind?_eq c), if_neg (mt (stopped _) here)]
  rfl

theorem reads_importModule (reads : Reads (expression unbounded) w a ends) :
    Reads (statement unbounded) (.ofKeyword .import :: w)
      (.importModule a none (Span.upTo (.synthetic "") a.span)) separators := by
  have other : ∀ h, separators h → h.any (· == .keyword .as) = false := by decide
  rw [← expression_unbounded] at reads
  refine reads_rule (.ofKeyword .import) rfl ?_
  have imported : Reads (importModule unbounded (.synthetic "")) (w ++ []) _ separators :=
    reads.bind (.missed (.pure _ _) fun tail follows => other _ follows)
      fun tail follows => separators_ends _ follows
  rwa [List.append_nil] at imported

theorem reads_importAs (reads : Reads (expression unbounded) w a ends) {token : Token}
    {binding : ImportAlias} (named : Reads importAlias [token] (binding, .synthetic "") anything) :
    Reads (statement unbounded) (.ofKeyword .import :: (w ++ [.ofKeyword .as, token]))
      (.importModule a (some binding) (.synthetic "")) separators := by
  rw [← expression_unbounded] at reads
  refine reads_rule (.ofKeyword .import) rfl ?_
  have bound : Reads (importAlias >>= fun named =>
      pure (Node.importModule a (some named.1) (Span.upTo (.synthetic "") named.2))) [token]
      (.importModule a (some binding) (.synthetic "")) separators :=
    (named.mono fun _ _ => trivial).bind_pure
  exact reads.bind (.found (.ofKeyword .as) rfl bound) fun _ _ => rfl

theorem reads_wildcard : Reads importAlias [.ofKind .star] (.wildcard, .synthetic "") anything :=
  .found (.ofKind .star) rfl (.pure _ _)

theorem reads_importName (name : String) :
    Reads importAlias [.ofName name] (.name name, .synthetic "") anything :=
  .missed (.taking (.ofName name) _ (.pure _ _)) fun _ _ => rfl

end Statements

end Grammar

end BasicScript
