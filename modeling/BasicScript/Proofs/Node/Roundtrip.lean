import BasicScript.Proofs.Node.Readback

/-! Parsing undoes spelling, over the whole syntax: any printer that puts at least the parentheses
of `Place.guards` is undone. -/

set_option autoImplicit false

namespace BasicScript

theorem Level.rank_le_atom (p : Level) : p.rank ≤ Level.atom.rank := by cases p <;> decide

theorem Level.atom_ends (h : Option TokenKind) : Level.atom.ends h := by cases h <;> rfl

theorem Level.rank_tighter_le {p q : Level} (less : p.rank < q.rank) : p.tighter.rank ≤ q.rank := by
  revert less
  cases p <;> cases q <;> decide

namespace Grammar

open BasicScript.Parser
open BasicScript.Node (enclosed parenthesized spell spellAll_eq_map spellEntries_eq_map spellBranches_eq_map
  spellBlock spellLines spellBranch)

variable {wraps : Place → Node → Bool}

/-- What reading the spelling of an expression comes to. A chain of operands, and one of calls,
indices and attributes, can be gone on with behind it. -/
structure Spelled (wraps : Place → Node → Bool) (node : Node) : Prop where
  reads : Reads (rule unbounded node.level) (spell wraps node) node.bare node.level.ends
  chains : ∀ left operator right s, node = .binary left operator right s →
    ChainReads operator.level.operator? (rule unbounded operator.level.tighter) (spell wraps node)
      node.bare operator.level.tighter.ends
  trails : node.level = .chained → TrailReads (spell wraps node) node.bare

namespace Spelled

variable {node l r : Node}

theorem atom (level : node.level = .atom) (reads : Reads (atom unbounded) (spell wraps node) node.bare anything) :
    Spelled wraps node where
  reads := by
    rw [level]
    exact reads.mono fun _ _ => trivial
  chains := by
    rintro _ operator _ _ rfl
    cases operator <;> cases level
  trails chained := by
    rw [level] at chained
    cases chained

theorem trail (level : node.level = .chained) (trail : TrailReads (spell wraps node) node.bare) :
    Spelled wraps node where
  reads := by
    rw [level]
    exact trail.done
  chains := by
    rintro _ operator _ _ rfl
    cases operator <;> cases level
  trails _ := trail

theorem expression (spelled : Spelled wraps node) :
    Reads (expression unbounded) (spell wraps node) node.bare ends := by
  refine reads_of_le (p := .assignment) (q := node.level) ?_ (Nat.zero_le _) fun _ => id
  exact spelled.reads.mono fun _ => Level.ends_of_le (p := .assignment) (Nat.zero_le _)

theorem of_place {place : Place} (needed : place.guards node = true → wraps place node = true)
    (bare : wraps place node = false) :
    place.level.rank ≤ node.level.rank ∧ place.negated node = false := by
  have free : place.guards node = false := Bool.eq_false_iff.mpr fun guarded =>
    Bool.eq_false_iff.mp bare (needed guarded)
  simpa only [Place.guards, Place.tightens, Bool.or_eq_false_iff, decide_eq_false_iff_not,
    Nat.not_lt] using free

theorem group (spelled : Spelled wraps node) :
    Reads (Grammar.atom unbounded) (enclosed .leftParen (spell wraps node) .rightParen) node.bare
      anything :=
  reads_group spelled.expression

theorem operand (spelled : Spelled wraps node) {place : Place}
    (needed : place.guards node = true → wraps place node = true) :
    Reads (rule unbounded place.level) (parenthesized (wraps place node) (spell wraps node))
      node.bare place.level.ends := by
  cases wrapped : wraps place node with
  | true =>
    exact reads_of_le (q := .atom) (spelled.group.mono fun _ _ => trivial) (Level.rank_le_atom _)
      fun _ => id
  | false =>
    have tight := (of_place needed wrapped).1
    exact reads_of_le (spelled.reads.mono fun _ => Level.ends_of_le tight) tight fun _ => id

/-- An operand on the left goes on with the chain that it is, or begins one. -/
theorem left (spelled : Spelled wraps node) {operator : BinaryOperator}
    (needed : Place.guards (.left operator) node = true → wraps (.left operator) node = true) :
    ChainReads operator.level.operator? (rule unbounded operator.level.tighter)
      (parenthesized (wraps (.left operator) node) (spell wraps node)) node.bare
      operator.level.tighter.ends := by
  cases wrapped : wraps (.left operator) node with
  | true =>
    exact .first (reads_of_le (q := .atom) (spelled.group.mono fun _ _ => trivial)
      (Level.rank_le_atom _) fun _ => id)
  | false =>
    obtain ⟨loosest, affirms⟩ := of_place needed wrapped
    by_cases same : operator.level = node.level
    · obtain ⟨l, other, r, s, rfl⟩ : ∃ l other r s, node = .binary l other r s := by
        cases node with
        | binary l other r s => exact ⟨l, other, r, s, rfl⟩
        | unary sign _ _ =>
          cases sign <;> cases operator <;> first | (cases affirms; done) | cases same
        | _ => cases operator <;> cases same
      have chain := spelled.chains l other r s rfl
      rw [show other.level = operator.level from same.symm] at chain
      exact chain
    · have tight := Level.rank_tighter_le (Nat.lt_of_le_of_ne loosest fun equal =>
        same (Level.eq_of_rank equal))
      exact .first (reads_of_le (spelled.reads.mono fun _ => Level.ends_of_le tight) tight fun _ => id)

theorem base (spelled : Spelled wraps node)
    (needed : Place.guards .base node = true → wraps .base node = true) :
    TrailReads (parenthesized (wraps .base node) (spell wraps node)) node.bare := by
  cases wrapped : wraps .base node with
  | true => exact .first spelled.group
  | false =>
    have tight := (of_place needed wrapped).1
    by_cases level : node.level = .chained
    · exact spelled.trails level
    · have level : node.level = .atom := by
        cases found : node.level <;> simp_all [Place.level, Level.rank]
      have reads := spelled.reads
      rw [level] at reads
      exact .first (reads.mono fun h _ => Level.atom_ends h)

theorem bare_binary (operator : BinaryOperator) (s : Span) :
    (Node.binary l operator r s).bare = .infixed l.bare operator r.bare := by
  rw [Node.infixed, Node.span_bare, Node.span_bare]
  rfl

theorem bare_unary (operator : UnaryOperator) (s : Span) :
    (Node.unary operator node s).bare = .signed (.synthetic "") operator node.bare := by
  rw [Node.signed, Node.span_bare]
  rfl

section Operators

variable (needed : ∀ place node, place.guards node = true → wraps place node = true)

include needed

theorem binary (left : Spelled wraps l) (right : Spelled wraps r) (operator : BinaryOperator) (s : Span) :
    Spelled wraps (.binary l operator r s) := by
  have chain : ChainReads operator.level.operator? (rule unbounded operator.level.tighter)
      (spell wraps (.binary l operator r s)) (Node.binary l operator r s).bare
      operator.level.tighter.ends := by
    have ended : operator.level.tighter.ends (some operator.kind) := by cases operator <;> rfl
    have next := (left.left (needed (.left operator) l)).next (rule_unrolls _ _)
      (.ofKind operator.kind) operator.operator?_kind ended (right.operand (needed (.right operator) r))
    rw [bare_binary]
    exact next
  have tight : ∀ h, operator.level.ends h → operator.level.tighter.ends h ∧
      h.any (fun kind => (operator.level.operator? kind).isSome) = false := fun h ends =>
    ⟨Level.ends_of_le (by cases operator <;> decide) ends,
      Level.ends_any (fun _ => Level.continues_operator) ends⟩
  refine ⟨?_, ?_, fun level => by cases operator <;> cases level⟩
  · have done := chain.done (rule_unrolls _ _) tight
    cases operator with
    | equal | notEqual | greater | less | greaterEqual | lessEqual => exact reads_comparison done
    | _ => exact done
  · rintro _ _ _ _ ⟨⟩
    exact chain

theorem unary (spelled : Spelled wraps node) (operator : UnaryOperator) (s : Span) :
    Spelled wraps (.unary operator node s) := by
  have operand := spelled.operand (needed (.behind operator) node)
  refine ⟨?_, by rintro _ _ _ _ ⟨⟩, fun level => by cases operator <;> cases level⟩
  rw [bare_unary]
  cases operator with
  | plus | negate =>
    change Reads (Grammar.unary unbounded) _ _ _ at operand
    rw [← unary_unbounded] at operand
    exact .found (.ofKind _) rfl (operand.operandOf _).bind_pure
  | not =>
    change Reads (comparison unbounded) _ _ _ at operand
    rw [← comparison_unbounded] at operand
    exact .found (.ofKeyword .not) rfl (operand.operandOf _).bind_pure

theorem member (spelled : Spelled wraps node) (name : String) (s : Span) :
    Spelled wraps (.member node name s) := by
  have turns := turns_member (a := node.bare) name
  rw [Node.span_bare] at turns
  exact .trail rfl ((spelled.base (needed .base node)).next turns fun _ => nofun)

theorem getIndex (base : Spelled wraps node) (index : Spelled wraps l) (s : Span) :
    Spelled wraps (.getIndex node l s) := by
  have turns := turns_index (a := node.bare) index.expression
  rw [Node.span_bare] at turns
  exact .trail rfl ((base.base (needed .base node)).next turns fun _ => nofun)

theorem setIndex (base : Spelled wraps node) (index : Spelled wraps l) (value : Spelled wraps r)
    (s : Span) : Spelled wraps (.setIndex node l r s) := by
  have assigns := reads_setIndex (a := node.bare) index.expression value.expression
  rw [Node.span_bare, Node.span_bare] at assigns
  have chained := (base.base (needed .base node)).last assigns fun _ => nofun
  refine ⟨?_, (by rintro _ _ _ _ ⟨⟩), nofun⟩
  exact reads_of_le (p := .assignment) (q := .chained) chained (by decide) fun _ => id

theorem call (callee : Spelled wraps node) {args : List Node} (each : ∀ arg ∈ args, Spelled wraps arg)
    (s : Span) : Spelled wraps (.call node args s) := by
  have called := reads_call (fun arg inside => (each arg inside).expression) node.bare
  rw [Node.span_bare] at called
  refine .trail rfl ?_
  simp only [spell, spellAll_eq_map, Node.bare, Node.relocate, Node.relocateAll_eq_map]
  exact (callee.base (needed .base node)).next (turns_call called) fun _ => nofun

end Operators

/-! ### Atoms -/

theorem number (value : Number) (s : Span) : Spelled wraps (.number value s) := by
  refine atom rfl ?_
  cases value <;> exact reads_atom (.ofNumber _) rfl (.pure _ _)

theorem string (value : String) (s : Span) : Spelled wraps (.string value s) :=
  atom rfl (reads_atom (.ofLiteral .string (.text value)) rfl (.pure _ _))

theorem access (name : String) (s : Span) : Spelled wraps (.access name s) :=
  atom rfl (reads_atom (.ofName name) rfl (.pure _ _))

theorem list {items : List Node} (each : ∀ item ∈ items, Spelled wraps item) (s : Span) :
    Spelled wraps (.list items s) := by
  refine atom rfl ?_
  simp only [spell, spellAll_eq_map, Node.bare, Node.relocate, Node.relocateAll_eq_map]
  exact reads_atom (.ofKind .leftBracket) rfl
    (reads_list (fun item inside => (each item inside).expression) _)

theorem range (start : Spelled wraps node) (stop : Spelled wraps l) (step : Spelled wraps r) (s : Span) :
    Spelled wraps (.range node l r s) := by
  have rest : Reads (listRest unbounded (.synthetic "") node.bare) _ _ anything :=
    .skip (.found (.ofKind .arrow) rfl
      (reads_range (.synthetic "") stop.expression step.expression)) fun _ _ => nofun
  exact atom rfl (reads_atom (.ofKind .leftBracket) rfl
    (reads_listStart start.expression rest fun _ => rfl))

theorem dictionary {entries : List (Node × Node)}
    (each : ∀ entry ∈ entries, Spelled wraps entry.1 ∧ Spelled wraps entry.2) (s : Span) :
    Spelled wraps (.dictionary entries s) := by
  refine atom rfl ?_
  simp only [spell, spellEntries_eq_map, Node.bare, Node.relocate, Node.relocateEntries_eq_map]
  exact reads_atom (.ofKind .leftBrace) rfl
    (reads_dictionary (fun entry inside =>
      reads_entry (each entry inside).1.expression (each entry inside).2.expression) _)

end Spelled

abbrev SpelledStatement (wraps : Place → Node → Bool) (node : Node) : Prop :=
  Reads (statement unbounded) (spell wraps node) node.bare separators

namespace Spelled

variable {node : Node} {body : List Node} (each : ∀ node ∈ body, SpelledStatement wraps node)

include each in
theorem whileLoop (condition : Spelled wraps node) (s : Span) :
    Spelled wraps (.whileLoop node body s) := by
  refine atom rfl ?_
  simp only [spell, spellAll_eq_map, Node.bare, Node.relocate, Node.relocateAll_eq_map]
  exact reads_atom (.ofKeyword .while) rfl (reads_whileLoop each condition.expression _)

include each in
theorem forLoop (iterable : Spelled wraps node) (item : String) (itemSpan s : Span) :
    Spelled wraps (.forLoop item itemSpan node body s) := by
  refine atom rfl ?_
  simp only [spell, spellAll_eq_map, Node.bare, Node.relocate, Node.relocateAll_eq_map]
  exact reads_atom (.ofKeyword .for) rfl (reads_forLoop each iterable.expression item _)

include each in
theorem function (name : Option String) {params : List String} (distinct : params.Nodup) (s : Span) :
    Spelled wraps (.function name params body s) := by
  refine atom rfl ?_
  simp only [spell, spellAll_eq_map, Node.bare, Node.relocate, Node.relocateAll_eq_map]
  exact reads_atom (.ofKeyword .function) rfl (reads_function each name distinct _)

theorem ifElse {branches : List (Node × List Node)} (some : branches ≠ [])
    (spelled : ∀ branch ∈ branches, Spelled wraps branch.1 ∧
      ∀ node ∈ branch.2, SpelledStatement wraps node)
    {otherwise : Option (List Node)} (each : ∀ body ∈ otherwise, ∀ node ∈ body, SpelledStatement wraps node)
    (s : Span) : Spelled wraps (.ifElse branches otherwise s) := by
  obtain ⟨branch, branches, rfl⟩ := List.exists_cons_of_ne_nil some
  have read (opener : Keyword) (each : Node × List Node) (inside : each ∈ branch :: branches) :
      Reads (Grammar.branch unbounded blockEnds opener) (spellBranch wraps each)
        (Node.relocateBranch .forget each) (atEnd blockEnds) := by
    have reads := reads_branch blockEnds (fun _ => id) opener (spelled each inside).1.expression
      (spelled each inside).2
    simpa only [spellBranch, spellLines, Node.relocateBranch, Node.relocateAll_eq_map] using reads
  have closes : branchEnds (Option.some (.keyword .end)) := by decide
  have goesOn : branchEnds (Option.some (.keyword .else)) := by decide
  refine atom rfl ?_
  simp only [spell, spellBranches_eq_map, Node.bare, Node.relocate, Node.relocateBranches_eq_map]
  cases otherwise with
  | none =>
    exact reads_atom (.ofKeyword .if) rfl
      (reads_ifElse read _ (.missed (.taking (.ofKeyword .end) _ (.pure _ _)) fun _ _ => rfl)
        fun _ => closes)
  | some body =>
    simp only [spellBlock, spellAll_eq_map, Node.relocateBlock, Node.relocateAll_eq_map]
    exact reads_atom (.ofKeyword .if) rfl
      (reads_ifElse read _ (reads_otherwise (each body rfl) _ _) fun _ => goesOn)

end Spelled

variable (needed : ∀ place node, place.guards node = true → wraps place node = true)

/-- An expression may stand as a statement. -/
theorem spelled_anywhere {node : Node} (spelled : ∀ asStatement, node.fits asStatement = true → Spelled wraps node) :
    (node.fits false = true → Spelled wraps node) ∧ (node.fits true = true → SpelledStatement wraps node) :=
  ⟨spelled false, fun fits => reads_statement (spelled true fits).expression⟩

include needed in
theorem spelled (node : Node) : (node.fits false = true → Spelled wraps node) ∧
    (node.fits true = true → SpelledStatement wraps node) := by
  induction node using Node.induct with
  | number value s => exact spelled_anywhere fun _ _ => .number value s
  | string value s => exact spelled_anywhere fun _ _ => .string value s
  | access name s => exact spelled_anywhere fun _ _ => .access name s
  | binary l operator r s left right =>
    refine spelled_anywhere fun _ fits => ?_
    simp only [Node.fits, Bool.and_eq_true] at fits
    exact .binary needed (left.1 fits.1) (right.1 fits.2) operator s
  | unary operator operand s ih =>
    refine spelled_anywhere fun _ fits => ?_
    simp only [Node.fits] at fits
    exact .unary needed (ih.1 fits) operator s
  | declare name constant value s ih =>
    refine ⟨nofun, fun fits => ?_⟩
    simp only [Node.fits, Bool.true_and] at fits
    have reads := reads_declaration name constant (ih.1 fits).expression
    rwa [Node.span_bare] at reads
  | assign name compound value s ih =>
    refine ⟨nofun, fun fits => ?_⟩
    simp only [Node.fits, Bool.true_and, Bool.and_eq_true, List.contains_iff_mem] at fits
    have reads := reads_assignment name fits.1 (ih.1 fits.2).expression
    rwa [Node.span_bare] at reads
  | list items s ih =>
    refine spelled_anywhere fun _ fits => ?_
    simp only [Node.fits, Node.fitAll_iff] at fits
    exact .list (fun item inside => (ih item inside).1 (fits item inside)) s
  | dictionary entries s ih =>
    refine spelled_anywhere fun _ fits => ?_
    simp only [Node.fits, Node.fitEntries_iff] at fits
    exact .dictionary (fun entry inside =>
      ⟨(ih entry inside).1.1 (fits entry inside).1, (ih entry inside).2.1 (fits entry inside).2⟩) s
  | getIndex base index s ihBase ihIndex =>
    refine spelled_anywhere fun _ fits => ?_
    simp only [Node.fits, Bool.and_eq_true] at fits
    exact .getIndex needed (ihBase.1 fits.1) (ihIndex.1 fits.2) s
  | setIndex base index value s ihBase ihIndex ihValue =>
    refine spelled_anywhere fun _ fits => ?_
    simp only [Node.fits, Bool.and_eq_true] at fits
    exact .setIndex needed (ihBase.1 fits.1.1) (ihIndex.1 fits.1.2) (ihValue.1 fits.2) s
  | member base name s ih =>
    refine spelled_anywhere fun _ fits => ?_
    simp only [Node.fits] at fits
    exact .member needed (ih.1 fits) name s
  | function name params body s ih =>
    refine spelled_anywhere fun _ fits => ?_
    simp only [Node.fits, Bool.and_eq_true, decide_eq_true_eq, Node.fitAll_iff] at fits
    exact .function (fun node inside => (ih node inside).2 (fits.2 node inside)) name fits.1 s
  | call callee args s ihCallee ih =>
    refine spelled_anywhere fun _ fits => ?_
    simp only [Node.fits, Bool.and_eq_true, Node.fitAll_iff] at fits
    exact .call needed (ihCallee.1 fits.1) (fun arg inside => (ih arg inside).1 (fits.2 arg inside)) s
  | ifElse branches otherwise s ihBranches ih =>
    refine spelled_anywhere fun _ fits => ?_
    simp only [Node.fits, Bool.and_eq_true, Bool.not_eq_true', List.isEmpty_eq_false_iff,
      Node.fitBranches_iff, Node.fitBlock_iff] at fits
    obtain ⟨⟨some, fitBranches⟩, fitBlock⟩ := fits
    refine .ifElse some (fun branch inside => ?_) (fun body found node inside => ?_) s
    · obtain ⟨condition, body⟩ := ihBranches branch inside
      exact ⟨condition.1 (fitBranches branch inside).1, fun node within =>
        (body node within).2 ((fitBranches branch inside).2 node within)⟩
    · exact (ih body found node inside).2 (fitBlock body found node inside)
  | whileLoop condition body s ihCondition ih =>
    refine spelled_anywhere fun _ fits => ?_
    simp only [Node.fits, Bool.and_eq_true, Node.fitAll_iff] at fits
    exact .whileLoop (fun node inside => (ih node inside).2 (fits.2 node inside)) (ihCondition.1 fits.1) s
  | forLoop item itemSpan iterable body s ihIterable ih =>
    refine spelled_anywhere fun _ fits => ?_
    simp only [Node.fits, Bool.and_eq_true, Node.fitAll_iff] at fits
    exact .forLoop (fun node inside => (ih node inside).2 (fits.2 node inside)) (ihIterable.1 fits.1)
      item itemSpan s
  | exitFunction value s ih =>
    cases value with
    | none => exact ⟨nofun, fun _ => reads_exitFunction_nothing⟩
    | some value =>
      refine ⟨nofun, fun fits => ?_⟩
      simp only [Node.fits, Bool.true_and] at fits
      have reads := reads_exitFunction ((ih value rfl).1 fits).expression
      rwa [Node.span_bare] at reads
  | exitLoop s =>
    exact ⟨nofun, fun _ => reads_rule (.ofKeyword .break) rfl (.pure _ _)⟩
  | nextTurn s =>
    exact ⟨nofun, fun _ => reads_rule (.ofKeyword .continue) rfl (.pure _ _)⟩
  | importModule name binding s ih =>
    refine ⟨nofun, fun fits => ?_⟩
    simp only [Node.fits, Bool.true_and] at fits
    have reads := (ih.1 fits).expression
    rcases binding with _ | _ | text
    · have imported := reads_importModule reads
      rwa [Node.span_bare] at imported
    · exact reads_importAs reads reads_wildcard
    · exact reads_importAs reads (reads_importName text)
  | range start stop step s ihStart ihStop ihStep =>
    refine spelled_anywhere fun _ fits => ?_
    simp only [Node.fits, Bool.and_eq_true] at fits
    exact .range (ihStart.1 fits.1.1) (ihStop.1 fits.1.2) (ihStep.1 fits.2) s

include needed in
theorem reads_program {nodes : List Node} (fits : ∀ node ∈ nodes, node.fits true = true) :
    Reads program (spellLines wraps nodes) (nodes.map Node.bare) fileEnd :=
  programLoop_lines.reads (fun node inside => (spelled needed node).2 (fits node inside)) []

end Grammar

namespace Node

/-- A printer that puts at least the parentheses of `Place.guards` is undone, wherever its tokens
stand and whatever is behind the end of the file. -/
theorem ofTokens_spelled {wraps : Place → Node → Bool}
    (needed : ∀ place node, place.guards node = true → wraps place node = true)
    {nodes : List Node} (fits : ∀ node ∈ nodes, node.fits true = true) {tokens : List Token}
    (printed : (tokens.takeWhile fun t => t.kind ≠ .eof).map (Token.relocate .forget) =
      spellLines wraps nodes) :
    ∃ same, ofTokens tokens = .ok same ∧ same.map bare = nodes.map bare := by
  have moved : ofTokens (tokens.map (Token.relocate .forget)) = .ok (nodes.map bare) := by
    have rest : ((Cursor.ofTokens tokens).relocate .forget).rest = spellLines wraps nodes ++ [] := by
      rw [List.append_nil]
      exact printed
    rw [ofTokens_eq, Cursor.ofTokens_relocate,
      (Grammar.reads_program needed fits).apply rest (List.mem_singleton_self _)]
    rfl
  obtain ⟨same, parsed, again⟩ | ⟨d, e, _, _, failed⟩ := ofTokens_relocate (g := .forget) tokens
  · exact ⟨same, parsed, Except.ok.inj (again.symm.trans moved)⟩
  · exact nomatch failed.symm.trans moved

/-- Parsing undoes printing: the tokens of statements, printed with parentheses around the operands
that are too loose for their places and around each negation on the left of a comparison, spell
these statements again. -/
theorem ofTokens_spell (nodes : List Node) (fits : ∀ node ∈ nodes, node.fits true = true)
    (tokens : List Token)
    (printed : (tokens.takeWhile fun t => t.kind ≠ .eof).map (Token.relocate .forget) =
      spellLines Place.guards nodes) :
    ∃ same, ofTokens tokens = .ok same ∧ same.map bare = nodes.map bare :=
  ofTokens_spelled (fun _ _ => id) fits printed

def comparedNegation : Node :=
  let s := Span.synthetic ""
  .binary (.unary .not (.access "a" s) s) .equal (.access "b" s) s

theorem ofTokens_spell_comparedNegation :
    ∃ same, ofTokens (spellLines Place.guards [comparedNegation] ++ [.ofKind .eof]) = .ok same ∧
      same.map bare = [comparedNegation.bare] :=
  ofTokens_spell [comparedNegation] (by decide) _ (by decide)

/-- Without the parentheses around a negation on the left of a comparison, the comparison is what is
negated. -/
theorem ofTokens_spell_unguarded :
    ¬∀ nodes : List Node, (∀ node ∈ nodes, node.fits true = true) → ∀ tokens : List Token,
      (tokens.takeWhile fun t => t.kind ≠ .eof).map (Token.relocate .forget) =
        spellLines Place.tightens nodes →
      ∃ same, ofTokens tokens = .ok same ∧ same.map bare = nodes.map bare := by
  intro undone
  obtain ⟨same, parsed, bare⟩ := undone [comparedNegation] (by decide)
    (spellLines Place.tightens [comparedNegation]) (by decide)
  have negated : ∃ operand s, ofTokens (spellLines Place.tightens [comparedNegation]) =
      .ok [.unary .not operand s] := ⟨_, _, rfl⟩
  obtain ⟨operand, s, negated⟩ := negated
  obtain rfl := Except.ok.inj (negated.symm.trans parsed)
  cases bare

end Node

end BasicScript
