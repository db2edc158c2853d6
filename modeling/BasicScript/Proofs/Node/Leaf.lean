import BasicScript.Proofs.Node.Unbounded
import BasicScript.Proofs.Token.Lexeme

/-! The names, numbers and strings of a tree, in the order of the source. The parser keeps each that
it takes: what has been read of them is what the nodes list. The one literal that it adds is the
step of a range that names none, which no token can be mistaken for, as tokens have a width. -/

set_option autoImplicit false

namespace BasicScript

/-- A name, or a literal with its place. -/
inductive Leaf where
  | name (text : String)
  | number (value : Number) (span : Span)
  | string (value : String) (span : Span)
  deriving DecidableEq

/-- Tokens of these kinds stand in the tree themselves; all others only shape it. -/
def TokenKind.isLeaf (kind : TokenKind) : Bool := kind == .identifier || kind.isLiteral

namespace Token

def leaf? (token : Token) : Option Leaf :=
  match token.kind, token.literal with
  | .identifier, _ => some (.name token.lexeme)
  | .integer, some (.integer n) => some (.number (.int n) token.span)
  | .float, some (.float f) => some (.number (.float f) token.span)
  | .string, some (.text s) => some (.string s token.span)
  | _, _ => none

/-- As a scanner makes tokens: the literal is of the token's kind, and the token has a width. -/
structure Scanned (token : Token) : Prop where
  typed : token.literal.map Literal.kind = if token.kind.isLiteral then some token.kind else none
  wide : token.span.start ≠ token.span.stop

variable {token : Token}

theorem leaf?_of_mark (mark : token.kind.isLeaf = false) : token.leaf? = none := by
  unfold leaf?
  split <;> first | rfl | simp_all [TokenKind.isLeaf, TokenKind.isLiteral]

theorem leaf?_of_identifier (identifier : token.kind = .identifier) :
    token.leaf? = some (.name token.lexeme) := by
  rw [leaf?, identifier]

theorem filterMap_leaf?_cons (token : Token) (rest : List Token) :
    (token :: rest).filterMap leaf? = token.leaf?.toList ++ rest.filterMap leaf? := by
  cases leaf : token.leaf? with
  | none => rw [List.filterMap_cons_none leaf]; rfl
  | some _ => rw [List.filterMap_cons_some leaf]; rfl

theorem Scanned.exists_literal (scanned : token.Scanned) (isLiteral : token.kind.isLiteral = true) :
    ∃ literal, token.literal = some literal ∧ literal.kind = token.kind := by
  have typed := scanned.typed
  rw [if_pos isLiteral] at typed
  exact Option.map_eq_some_iff.mp typed

theorem Scanned.number (scanned : token.Scanned) (kind : token.kind = .integer ∨ token.kind = .float) :
    ∃ value, token.leaf? = some (.number value token.span) ∧
      (Grammar.number token : Parser Node) = pure (.number value token.span) := by
  obtain ⟨literal, found, same⟩ := scanned.exists_literal (by rcases kind with kind | kind <;> rw [kind] <;> rfl)
  cases literal with
  | integer n => exact ⟨.int n, by rw [leaf?, ← same, found]; rfl, by rw [Grammar.number, found]⟩
  | float f => exact ⟨.float f, by rw [leaf?, ← same, found]; rfl, by rw [Grammar.number, found]⟩
  | text s => rcases kind with kind | kind <;> exact absurd (same.trans kind) (by simp [Literal.kind])

theorem Scanned.string (scanned : token.Scanned) (kind : token.kind = .string) :
    ∃ value, token.leaf? = some (.string value token.span) ∧
      Grammar.string token = .string value token.span := by
  obtain ⟨literal, found, same⟩ := scanned.exists_literal (by rw [kind]; rfl)
  cases literal with
  | text s => exact ⟨s, by rw [leaf?, ← same, found]; rfl, by rw [Grammar.string, found]⟩
  | integer _ | float _ => exact absurd (same.trans kind) (by simp [Literal.kind])

theorem Scanned.leaf?_isSome (scanned : token.Scanned) : token.leaf?.isSome = token.kind.isLeaf := by
  by_cases mark : token.kind.isLeaf = false
  · rw [leaf?_of_mark mark, mark, Option.isSome_none]
  rw [Bool.not_eq_false] at mark
  rw [mark]
  by_cases name : token.kind = .identifier
  · rw [leaf?_of_identifier name, Option.isSome_some]
  · have isLiteral : token.kind.isLiteral = true := by simpa [TokenKind.isLeaf, name] using mark
    obtain ⟨literal, found, same⟩ := scanned.exists_literal isLiteral
    cases literal <;> rw [leaf?, ← same, found] <;> rfl

end Token

namespace Node

/-- A step that a range with this bound does not name. -/
def isLeftOut (bound step : Node) : Bool :=
  match step with
  | .number value span => value == .int 1 && span == .single bound.span.file bound.span.stop
  | _ => false

mutual

/-- The names and literals of a node from left to right, less the step of a range that names
none. -/
@[simp] def leaves : Node → List Leaf
  | .number value s => [.number value s]
  | .string value s => [.string value s]
  | .binary left _ right _ => left.leaves ++ right.leaves
  | .unary _ operand _ => operand.leaves
  | .access name _ => [.name name]
  | .declare name _ value _ | .assign name _ value _ => .name name :: value.leaves
  | .list items _ => leavesAll items
  | .dictionary entries _ => leavesEntries entries
  | .getIndex base index _ => base.leaves ++ index.leaves
  | .setIndex base index value _ => base.leaves ++ index.leaves ++ value.leaves
  | .member base name _ => base.leaves ++ [.name name]
  | .function name params body _ => (name.toList ++ params).map .name ++ leavesAll body
  | .call callee args _ => callee.leaves ++ leavesAll args
  | .ifElse branches otherwise _ => leavesBranches branches ++ leavesBlock otherwise
  | .whileLoop condition body _ => condition.leaves ++ leavesAll body
  | .forLoop item _ iterable body _ => .name item :: (iterable.leaves ++ leavesAll body)
  | .exitFunction none _ | .exitLoop _ | .nextTurn _ => []
  | .exitFunction (some value) _ => value.leaves
  | .importModule name (some (.name binding)) _ => name.leaves ++ [.name binding]
  | .importModule name _ _ => name.leaves
  | .range start stop step _ =>
    start.leaves ++ stop.leaves ++ if isLeftOut stop step then [] else step.leaves

def leavesAll : List Node → List Leaf
  | [] => []
  | node :: rest => node.leaves ++ leavesAll rest

def leavesEntries : List (Node × Node) → List Leaf
  | [] => []
  | (key, value) :: rest => key.leaves ++ value.leaves ++ leavesEntries rest

def leavesBranches : List (Node × List Node) → List Leaf
  | [] => []
  | (condition, body) :: rest => condition.leaves ++ leavesAll body ++ leavesBranches rest

def leavesBlock : Option (List Node) → List Leaf
  | none => []
  | some body => leavesAll body

end

theorem leavesAll_eq_flatMap (nodes : List Node) : leavesAll nodes = nodes.flatMap leaves := by
  induction nodes with
  | nil => rfl
  | cons node rest ih => rw [leavesAll, ih, List.flatMap_cons]

theorem leavesEntries_eq_flatMap (entries : List (Node × Node)) :
    leavesEntries entries = (entries.flatMap fun entry => [entry.1, entry.2]).flatMap leaves := by
  induction entries with
  | nil => rfl
  | cons entry rest ih => simp [leavesEntries, ih]

theorem leavesBranches_eq_flatMap (branches : List (Node × List Node)) :
    leavesBranches branches =
      (branches.flatMap fun branch => branch.1 :: branch.2).flatMap leaves := by
  induction branches with
  | nil => rfl
  | cons branch rest ih => simp [leavesBranches, leavesAll_eq_flatMap, ih]

theorem leavesBlock_eq_flatMap (body : Option (List Node)) :
    leavesBlock body = (body.getD []).flatMap leaves := by
  cases body with
  | none => rfl
  | some body => exact leavesAll_eq_flatMap body

/-- Only the number one, without a width, at the end of the bound is left out. -/
theorem isLeftOut_iff (bound step : Node) :
    isLeftOut bound step = true ↔ step = Grammar.defaultStep bound := by
  cases step <;> simp [isLeftOut, Grammar.defaultStep]

/-- The nodes list what lies between `before` and `after`, and each is one that tokens spell. -/
structure Listed (before : List Leaf) (nodes : List Node) (after : List Leaf) : Prop where
  leaves : after = before ++ nodes.flatMap leaves
  spelled : ∀ node ∈ nodes, ∀ bound, isLeftOut bound node = false

namespace Listed

variable {before mid after : List Leaf} {nodes others : List Node} {node : Node}

theorem nil : Listed before [] before := ⟨(List.append_nil before).symm, List.forall_mem_nil _⟩

theorem append (first : Listed before nodes mid) (second : Listed mid others after) :
    Listed before (nodes ++ others) after :=
  ⟨by rw [second.leaves, first.leaves, List.flatMap_append, List.append_assoc],
    List.forall_mem_append.mpr ⟨first.spelled, second.spelled⟩⟩

theorem behind {names : List Leaf} (inner : Listed (before ++ names) nodes after)
    (spelled : ∀ bound, isLeftOut bound node = false)
    (leaves : node.leaves = names ++ nodes.flatMap Node.leaves) : Listed before [node] after :=
  ⟨by simp [inner.leaves, leaves], by simpa using spelled⟩

theorem parts (inner : Listed before nodes after) (spelled : ∀ bound, isLeftOut bound node = false)
    (leaves : node.leaves = nodes.flatMap Node.leaves) : Listed before [node] after :=
  ⟨by simp [inner.leaves, leaves], by simpa using spelled⟩

theorem named {name : Leaf} (inner : Listed before nodes after)
    (spelled : ∀ bound, isLeftOut bound node = false)
    (leaves : node.leaves = nodes.flatMap Node.leaves ++ [name]) :
    Listed before [node] (after ++ [name]) :=
  ⟨by simp [inner.leaves, leaves], by simpa using spelled⟩

theorem number {value : Number} {span : Span} (wide : span.start ≠ span.stop) :
    Listed before [.number value span] (before ++ [.number value span]) := by
  refine ⟨rfl, List.forall_mem_singleton.mpr fun bound => ?_⟩
  have other : span ≠ .single bound.span.file bound.span.stop := by
    rintro rfl
    exact wide rfl
  simp [isLeftOut, other]

end Listed

end Node

theorem Cursor.exists_skipNewlines (c : Cursor) : ∃ lines, c.rest = lines ++ c.skipNewlines.rest ∧
    ∀ token ∈ lines, token.kind = .newline := by
  obtain ⟨taken, previous, rest⟩ := c
  show ∃ lines, rest = lines ++ (skipNewlines.go rest taken previous).rest ∧ _
  induction rest generalizing taken previous with
  | nil => exact ⟨[], rfl, List.forall_mem_nil _⟩
  | cons token rest ih =>
    by_cases newline : token.kind = .newline
    · obtain ⟨lines, splits, newlines⟩ := ih (taken + 1) (some token)
      rw [Cursor.skipNewlines.go, if_pos newline]
      exact ⟨token :: lines, congrArg (token :: ·) splits,
        List.forall_mem_cons.mpr ⟨newline, newlines⟩⟩
    · rw [Cursor.skipNewlines.go, if_neg newline]
      exact ⟨[], rfl, List.forall_mem_nil _⟩

/-- When `p` starts behind tokens that leave `before`, it stops behind tokens that leave what `Q`
says. -/
def Gathers {α : Type} (before : List Leaf) (p : Parser α) (Q : α → List Leaf → Prop) : Prop :=
  ∀ ⦃c : Cursor⦄, (∀ token ∈ c.rest, token.Scanned) → ∀ ⦃a : α⦄ ⦃d : Cursor⦄, p c = .ok a d →
    ∃ read, c.rest = read ++ d.rest ∧ Q a (before ++ read.filterMap Token.leaf?)

namespace Gathers

variable {α β : Type} {before : List Leaf} {p : Parser α} {Q : α → List Leaf → Prop}
  {R : β → List Leaf → Prop}

theorem pure {a : α} (holds : Q a before) : Gathers before (Pure.pure a) Q := by
  rintro c _ _ _ ⟨⟩
  exact ⟨[], rfl, by simpa using holds⟩

theorem bind {r : α → Parser β} (first : Gathers before p Q)
    (rest : ∀ a mid, Q a mid → Gathers mid (r a) R) : Gathers before (p >>= r) R := by
  intro c scanned b d done
  obtain ⟨a, mid, found, done⟩ := ok_of_bind done
  obtain ⟨read, splits, holds⟩ := first scanned found
  rw [splits] at scanned
  obtain ⟨more, splits', holds⟩ := rest a _ holds (List.forall_mem_append.mp scanned).2 done
  refine ⟨read ++ more, by rw [splits, splits', List.append_assoc], ?_⟩
  rwa [List.filterMap_append, ← List.append_assoc]

theorem map {f : α → β} (gathers : Gathers before p fun a => R (f a)) : Gathers before (f <$> p) R := by
  rw [map_eq_pure_bind]
  exact .bind gathers fun _ _ holds => .pure holds

theorem ite {P : Prop} [Decidable P] {p' : Parser α} (yes : Gathers before p Q)
    (no : Gathers before p' Q) : Gathers before (if P then p else p') Q := by
  split
  · exact yes
  · exact no

theorem fail {fault : Fault} {span : Span} : Gathers before (Parser.fail fault span) Q := by
  rintro c _ _ _ ⟨⟩

theorem expected {what : Expected} : Gathers before (Parser.expected what) Q := by
  rintro c _ _ _ ⟨⟩

theorem look {r : Option TokenKind → Parser β} (rest : ∀ kind, Gathers before (r kind) R) :
    Gathers before (Parser.peekKind? >>= r) R := by
  intro c scanned b d done
  rw [bind_of_ok (Parser.peekKind?_eq c)] at done
  exact rest _ scanned done

theorem rounds {r : Nat → Parser β} (rest : ∀ n, Gathers before (r n) R) :
    Gathers before (Parser.rounds >>= r) R := by
  intro c scanned b d done
  rw [bind_of_ok (Parser.rounds_eq c)] at done
  exact rest _ scanned done

theorem skip {q : Unit → Parser β} (rest : Gathers before (q ()) R) :
    Gathers before (Parser.skipNewlines >>= q) R := by
  refine .bind (Q := fun _ after => after = before) ?_ fun _ _ same => same ▸ rest
  intro c _ _ d done
  rw [Parser.skipNewlines_eq] at done
  cases done
  obtain ⟨lines, splits, newlines⟩ := c.exists_skipNewlines
  have nothing : lines.filterMap Token.leaf? = [] :=
    List.filterMap_eq_nil_iff.mpr fun token inside =>
      Token.leaf?_of_mark (by rw [newlines token inside]; rfl)
  exact ⟨lines, splits, by rw [nothing, List.append_nil]⟩

theorem takeIf? {wanted : TokenKind → Bool} : Gathers before (Parser.takeIf? wanted)
    fun found after => (∀ token ∈ found, wanted token.kind = true) ∧
      after = before ++ found.toList.filterMap Token.leaf? := by
  intro c _ found d done
  by_cases unwanted : c.kind?.any wanted = false
  · rw [Parser.takeIf?_of_other unwanted] at done
    cases done
    exact ⟨[], rfl, fun _ none => absurd none (Option.not_mem_none _), rfl⟩
  · obtain ⟨taken, previous, _ | ⟨token, rest⟩⟩ := c
    · exact absurd rfl unwanted
    · have want : wanted token.kind = true := by simpa [Cursor.kind?] using unwanted
      rw [Parser.takeIf?_of_wanted want] at done
      cases done
      refine ⟨[token], rfl, ?_, rfl⟩
      rintro _ ⟨⟩
      exact want

theorem mark? {wanted : TokenKind → Bool} (marks : ∀ kind, wanted kind = true → kind.isLeaf = false)
    {r : Option Token → Parser β} (rest : ∀ found, Gathers before (r found) R) :
    Gathers before (Parser.takeIf? wanted >>= r) R := by
  refine .bind takeIf? fun found _ ⟨want, same⟩ => ?_
  have nothing : found.toList.filterMap Token.leaf? = [] := by
    cases found with
    | none => rfl
    | some token => exact List.filterMap_cons_none (Token.leaf?_of_mark (marks _ (want token rfl)))
  rw [same, nothing, List.append_nil]
  exact rest found

theorem mark {kind : TokenKind} (mark : kind.isLeaf = false) {what : Expected} {r : Token → Parser β}
    (rest : ∀ token, Gathers before (r token) R) : Gathers before (Parser.take kind what >>= r) R := by
  refine .bind (Q := fun _ after => after = before) (.mark? (fun other same => ?_) fun found => ?_)
    fun token _ same => same ▸ rest token
  · rwa [beq_iff_eq.mp same]
  · cases found with
    | some token => exact .pure rfl
    | none => exact .expected

theorem name? {r : Option Token → Parser β}
    (rest : ∀ found : Option Token,
      Gathers (before ++ (found.map Token.lexeme).toList.map .name) (r found) R) :
    Gathers before (Parser.take? .identifier >>= r) R := by
  refine .bind takeIf? fun found _ ⟨want, same⟩ => ?_
  have named : found.toList.filterMap Token.leaf? = (found.map Token.lexeme).toList.map .name := by
    cases found with
    | none => rfl
    | some token =>
      exact List.filterMap_cons_some (Token.leaf?_of_identifier (beq_iff_eq.mp (want token rfl)))
  rw [same, named]
  exact rest found

theorem name {what : Expected} {r : Token → Parser β}
    (rest : ∀ token, Gathers (before ++ [.name token.lexeme]) (r token) R) :
    Gathers before (Parser.take .identifier what >>= r) R := by
  rw [Parser.take, bind_assoc]
  refine .name? fun found => ?_
  cases found with
  | some token => exact rest token
  | none =>
    rintro c _ _ _ ⟨⟩

theorem operandOf {sign : Token} (gathers : Gathers before p Q) :
    Gathers before (Parser.operandOf sign p) Q := by
  intro c scanned a d done
  cases found : p c with
  | ok b e =>
    rw [Parser.operandOf_of_ok found] at done
    cases done
    exact gathers scanned found
  | error e after =>
    rw [Parser.operandOf_of_error found] at done
    cases done

end Gathers

def Lists {α : Type} (p : Parser α) (nodes : α → List Node) : Prop :=
  ∀ before, Gathers before p fun a after => Node.Listed before (nodes a) after

structure RulesOver.List (r : Rules) : Prop where
  expression : Lists r.expression ([·])
  comparison : Lists r.comparison ([·])
  unary : Lists r.unary ([·])
  statement : Lists r.statement ([·])

namespace Grammar

open BasicScript.Parser

variable {r : Rules} {α : Type} {start before : List Leaf} {first : Span}

/-! ### Separators and blocks -/

theorem atKeyword_gathers (keywords : List Keyword) :
    Gathers before (atKeyword keywords) fun _ after => after = before := by
  refine .look fun kind => ?_
  split <;> exact .pure rfl

theorem atBlockEnd_gathers : Gathers before atBlockEnd fun _ after => after = before := by
  refine .look fun kind => ?_
  cases kind with
  | none => exact .pure rfl
  | some _ => exact atKeyword_gathers blockEnds

/-- A token of one kind only, which is no leaf. -/
theorem isLeaf_of_beq {kind : TokenKind} (mark : kind.isLeaf = false) (other : TokenKind)
    (same : (other == kind) = true) : other.isLeaf = false := by
  rwa [beq_iff_eq.mp same]

theorem statementLine_lists {p : Parser Node} (statement : Lists p ([·])) :
    Lists (statementLine p) ([·]) := by
  refine fun before => .bind (statement before) fun node after listed =>
    .mark? (isLeaf_of_beq rfl) fun separator => ?_
  cases separator with
  | some _ => exact .pure listed
  | none => exact .bind atBlockEnd_gathers fun _ _ same => same ▸ .ite (.pure listed) .expected

theorem blockFrom_gathers (rules : r.List) (terminators : List Keyword) (opener : Keyword) (n : Nat)
    {body : List Node} (listed : Node.Listed start body.reverse before) :
    Gathers before (blockFrom r terminators opener n body) fun nodes after =>
      Node.Listed start nodes after := by
  induction n generalizing before body with
  | zero => exact .expected
  | succ n ih =>
    refine .skip (.bind (atKeyword_gathers terminators) ?_)
    rintro _ _ rfl
    refine .ite (.pure listed) (.look fun kind => ?_)
    cases kind with
    | none => exact .expected
    | some _ =>
      refine .bind (statementLine_lists rules.statement _) fun node _ line => ih ?_
      rw [List.reverse_cons]
      exact listed.append line

theorem block_lists (rules : r.List) (terminators : List Keyword) (opener : Keyword) :
    Lists (block r terminators opener) id :=
  fun _ => .rounds fun n => blockFrom_gathers rules terminators opener n .nil

theorem itemsFrom_gathers {item : Parser α} {nodes : α → List Node} (lists : Lists item nodes)
    (n : Nat) {items : List α} (listed : Node.Listed start (items.reverse.flatMap nodes) before) :
    Gathers before (itemsFrom item n items) fun items after =>
      Node.Listed start (items.flatMap nodes) after := by
  induction n generalizing before items with
  | zero => exact .expected
  | succ n ih =>
    refine .bind (lists _) fun a after inner => .skip (.mark? (isLeaf_of_beq rfl) fun comma => ?_)
    have listed : Node.Listed start ((a :: items).reverse.flatMap nodes) after := by
      rw [List.reverse_cons, List.flatMap_append, List.flatMap_singleton]
      exact listed.append inner
    cases comma with
    | none => exact .pure listed
    | some _ => exact .skip (ih listed)

theorem itemsBefore_lists {item : Parser α} {nodes : α → List Node} (close : TokenKind)
    (lists : Lists item nodes) : Lists (itemsBefore close item) (·.flatMap nodes) :=
  fun _ => .skip (.look fun _ => .ite (.pure .nil) (.rounds fun n => itemsFrom_gathers lists n .nil))

/-! ### Atoms -/

theorem group_lists (rules : r.List) : Lists (group r) ([·]) :=
  fun before => .skip (.bind (rules.expression before) fun _ _ listed =>
    .skip (.mark rfl fun _ => .pure listed))

theorem range_gathers (rules : r.List) {from' : Node} (listed : Node.Listed start [from'] before) :
    Gathers before (range r first from') fun node after => Node.Listed start [node] after := by
  refine .bind (rules.expression _) fun stop _ bound => .skip (.mark? (isLeaf_of_beq rfl) fun arrow => ?_)
  have bounds := listed.append bound
  cases arrow with
  | none =>
    refine .mark rfl fun last => .pure (bounds.parts (fun _ => rfl) ?_)
    simp [(Node.isLeftOut_iff stop _).mpr rfl]
  | some _ =>
    refine .bind (rules.expression _) fun step _ inner => .skip ?_
    have spelled : Node.isLeftOut stop step = false := inner.spelled step (List.mem_singleton_self _) stop
    refine .mark rfl fun last => .pure ((bounds.append inner).parts (fun _ => rfl) ?_)
    simp [spelled]

theorem list_lists (rules : r.List) : Lists (list r first) ([·]) := by
  refine fun before => .skip (.mark? (isLeaf_of_beq rfl) fun last => ?_)
  cases last with
  | some last => exact .pure (.parts .nil (fun _ => rfl) rfl)
  | none =>
    refine .bind (rules.expression before) fun item _ listed =>
      .skip (.mark? (isLeaf_of_beq rfl) fun arrow => ?_)
    have close {items : List Node} {after : List Leaf} (listed : Node.Listed before (item :: items) after) :
        Gathers after (take .rightBracket .listEnd >>= fun last =>
          pure (.list (item :: items) (first.upTo last.span)))
          fun node after => Node.Listed before [node] after :=
      .mark rfl fun _ => .pure (listed.parts (fun _ => rfl) (Node.leavesAll_eq_flatMap _))
    cases arrow with
    | some _ => exact range_gathers rules listed
    | none =>
      refine .mark? (isLeaf_of_beq rfl) fun comma => ?_
      cases comma with
      | none => exact close listed
      | some _ =>
        refine .skip (.rounds fun n =>
          .bind (itemsFrom_gathers rules.expression n .nil) fun items _ more => ?_)
        rw [List.flatMap_singleton'] at more
        exact close (listed.append more)

theorem entry_lists (rules : r.List) : Lists (entry r) fun entry => [entry.1, entry.2] :=
  fun before => .bind (rules.expression before) fun _ _ key => .mark rfl fun _ =>
    .skip (.bind (rules.expression _) fun _ _ value => .pure (key.append value))

theorem dictionary_lists (rules : r.List) : Lists (dictionary r first) ([·]) :=
  fun before => .bind (itemsBefore_lists _ (entry_lists rules) before) fun _ _ entries =>
    .mark rfl fun _ => .pure (entries.parts (fun _ => rfl) (Node.leavesEntries_eq_flatMap _))

theorem branch_lists (rules : r.List) (terminators : List Keyword) (opener : Keyword) :
    Lists (branch r terminators opener) fun branch => branch.1 :: branch.2 :=
  fun before => .bind (rules.expression before) fun _ _ condition => .mark rfl fun _ =>
    .bind (block_lists rules terminators opener _) fun _ _ body => .pure (condition.append body)

theorem elseIfsFrom_gathers (rules : r.List) (n : Nat) {branches : List (Node × List Node)}
    (listed : Node.Listed start (branches.reverse.flatMap fun branch => branch.1 :: branch.2) before) :
    Gathers before (elseIfsFrom r n branches) fun branches after =>
      Node.Listed start (branches.flatMap fun branch => branch.1 :: branch.2) after := by
  induction n generalizing before branches with
  | zero => exact .pure listed
  | succ n ih =>
    refine .mark? (isLeaf_of_beq rfl) fun other => ?_
    cases other with
    | none => exact .pure listed
    | some _ =>
      refine .bind (branch_lists rules blockEnds .elseIf _) fun branch _ inner => ih ?_
      rw [List.reverse_cons, List.flatMap_append, List.flatMap_singleton]
      exact listed.append inner

theorem ifElse_lists (rules : r.List) : Lists (ifElse r first) ([·]) := by
  refine fun before => .bind (branch_lists rules blockEnds .if before) fun head _ listed =>
    .rounds fun n => .bind (elseIfsFrom_gathers rules n (by simpa using listed))
      fun branches mid listed => .mark? (isLeaf_of_beq rfl) fun other => ?_
  have close {otherwise : Option (List Node)} {after : List Leaf}
      (inner : Node.Listed mid (otherwise.getD []) after) :
      Gathers after (blockClose .if >>= fun last =>
        pure (.ifElse branches otherwise (first.upTo last.span)))
        fun node after => Node.Listed before [node] after := by
    refine .mark rfl fun _ => .pure ((listed.append inner).parts (fun _ => rfl) ?_)
    rw [Node.leaves, Node.leavesBranches_eq_flatMap, Node.leavesBlock_eq_flatMap, List.flatMap_append]
  cases other with
  | none => exact close .nil
  | some _ =>
    exact .bind (Q := fun otherwise after => Node.Listed mid (otherwise.getD []) after)
      (.map (block_lists rules [.end] .else mid)) fun _ _ => close

theorem whileLoop_lists (rules : r.List) : Lists (whileLoop r first) ([·]) := by
  refine fun before => .bind (branch_lists rules [.end] .while before) fun (condition, body) _ inner =>
    .mark rfl fun _ => .pure (inner.parts (fun _ => rfl) ?_)
  rw [Node.leaves, Node.leavesAll_eq_flatMap, List.flatMap_cons]

theorem forLoop_lists (rules : r.List) : Lists (forLoop r first) ([·]) := by
  refine fun before => .name fun item => .mark rfl fun _ =>
    .bind (branch_lists rules [.end] .for _) fun (iterable, body) after inner =>
      .mark rfl fun last => .pure (inner.behind (fun _ => rfl) ?_)
  rw [Node.leaves, Node.leavesAll_eq_flatMap, List.flatMap_cons]
  rfl

theorem parametersFrom_gathers (n : Nat) (names : List String) :
    Gathers (start ++ names.reverse.map .name) (parametersFrom n names) fun names after =>
      after = start ++ names.map .name := by
  induction n generalizing names with
  | zero => exact .expected
  | succ n ih =>
    refine .name fun param => ?_
    have further : start ++ names.reverse.map .name ++ [.name param.lexeme] =
        start ++ (param.lexeme :: names).reverse.map .name := by simp
    rw [further]
    refine .ite (.bind (Q := fun _ _ => False) .fail fun _ _ => False.elim) (.mark? (isLeaf_of_beq rfl) fun comma => ?_)
    cases comma with
    | none => exact .pure rfl
    | some _ => exact ih (param.lexeme :: names)

theorem parameters_gathers : Gathers before parameters fun names after =>
    after = before ++ names.map .name := by
  refine .look fun _ => .ite (.pure (by simp)) (.rounds fun n => ?_)
  have gathers : Gathers (before ++ ([] : List String).reverse.map .name) (parametersFrom n []) _ :=
    parametersFrom_gathers n []
  rwa [List.reverse_nil, List.map_nil, List.append_nil] at gathers

theorem function_lists (rules : r.List) : Lists (function r first) ([·]) := by
  refine fun before => .name? fun name => .mark rfl fun _ => .bind parameters_gathers ?_
  rintro params _ rfl
  refine .mark rfl fun _ => .bind (block_lists rules [.end] .function _) fun body _ inner =>
    .mark rfl fun _ => .pure ?_
  rw [List.append_assoc, ← List.map_append] at inner
  refine inner.behind (fun _ => rfl) ?_
  rw [Node.leaves, Node.leavesAll_eq_flatMap]
  rfl

/-- Behind the first token of an atom. -/
theorem atomOf?_gathers (rules : r.List) {token : Token} (scanned : token.Scanned) {rule : Parser Node}
    (found : atomOf? r token = some rule) :
    Gathers (before ++ token.leaf?.toList) rule fun node after => Node.Listed before [node] after := by
  have number (kind : token.kind = .integer ∨ token.kind = .float) :
      Gathers (before ++ token.leaf?.toList) (number token) fun node after =>
        Node.Listed before [node] after := by
    obtain ⟨value, leaf, rule⟩ := scanned.number kind
    rw [leaf, rule]
    exact .pure (.number scanned.wide)
  have mark (mark : token.kind.isLeaf = false) {rule : Parser Node} (lists : Lists rule ([·])) :
      Gathers (before ++ token.leaf?.toList) rule fun node after => Node.Listed before [node] after := by
    rw [Token.leaf?_of_mark mark, Option.toList_none, List.append_nil]
    exact lists before
  unfold atomOf? at found
  split at found
  case h_1 kind => cases found; exact number (.inl kind)
  case h_2 kind => cases found; exact number (.inr kind)
  case h_3 kind =>
    cases found
    obtain ⟨value, leaf, node⟩ := scanned.string kind
    rw [leaf, node]
    exact .pure ⟨rfl, by simp [Node.isLeftOut]⟩
  case h_4 kind =>
    cases found
    rw [Token.leaf?_of_identifier kind]
    exact .pure ⟨rfl, by simp [Node.isLeftOut]⟩
  case h_5 kind => cases found; exact mark (by rw [kind]; rfl) (group_lists rules)
  case h_6 kind => cases found; exact mark (by rw [kind]; rfl) (list_lists rules)
  case h_7 kind => cases found; exact mark (by rw [kind]; rfl) (dictionary_lists rules)
  case h_8 kind => cases found; exact mark (by rw [kind]; rfl) (ifElse_lists rules)
  case h_9 kind => cases found; exact mark (by rw [kind]; rfl) (whileLoop_lists rules)
  case h_10 kind => cases found; exact mark (by rw [kind]; rfl) (forLoop_lists rules)
  case h_11 kind => cases found; exact mark (by rw [kind]; rfl) (function_lists rules)
  case h_12 => cases found

theorem atom_lists (rules : r.List) : Lists (atom r) ([·]) := by
  rintro before ⟨taken, previous, _ | ⟨token, rest⟩⟩ scanned node d done
  · cases done
  · obtain ⟨first, scanned⟩ := List.forall_mem_cons.mp scanned
    rw [atom_cons] at done
    cases found : atomOf? r token with
    | none =>
      rw [found] at done
      cases done
    | some rule =>
      rw [found] at done
      obtain ⟨read, splits, listed⟩ := atomOf?_gathers rules first found scanned done
      exact ⟨token :: read, congrArg (token :: ·) splits, by
        rwa [Token.filterMap_leaf?_cons, ← List.append_assoc]⟩

/-! ### Operators -/

theorem call_gathers (rules : r.List) {callee : Node} (listed : Node.Listed start [callee] before) :
    Gathers before (call r callee) fun node after => Node.Listed start [node] after := by
  have args := itemsBefore_lists .rightParen rules.expression
  simp only [List.flatMap_singleton'] at args
  exact .bind (args before) fun _ _ inner => .mark rfl fun _ =>
    .pure ((listed.append inner).parts (fun _ => rfl)
      (congrArg (callee.leaves ++ ·) (Node.leavesAll_eq_flatMap _)))

theorem index_lists (rules : r.List) {base : Node} : Lists (index r base) ([·.1]) := by
  refine fun before => .look fun _ => .ite ?_ ?_
  · intro c _ found d done
    rw [bind_of_ok (get_eq c)] at done
    cases done
  · exact .bind (rules.expression before) fun _ _ inner => .mark rfl fun _ => .pure inner

theorem postfixFrom_gathers (rules : r.List) (n : Nat) {node : Node}
    (listed : Node.Listed start [node] before) :
    Gathers before (postfixFrom r n node) fun node after => Node.Listed start [node] after := by
  induction n generalizing before node with
  | zero => exact .pure listed
  | succ n ih =>
    refine .mark? (fun kind opens => ?_) fun opening => ?_
    · simp only [Bool.or_eq_true, beq_iff_eq] at opens
      rcases opens with (rfl | rfl) | rfl <;> rfl
    cases opening with
    | none => exact .pure listed
    | some opening =>
      dsimp only
      split
      · exact .bind (call_gathers rules listed) fun _ _ listed => ih listed
      · refine .bind (index_lists rules before) fun (index, span) _ inner =>
          .mark? (isLeaf_of_beq rfl) fun equals => ?_
        have both := listed.append inner
        cases equals with
        | none => exact ih (both.parts (fun _ => rfl) (by simp))
        | some equals =>
          exact .bind (.operandOf (rules.expression _)) fun value _ assigned =>
            .pure ((both.append assigned).parts (fun _ => rfl) (by simp))
      · exact .name fun name => ih (listed.named (fun _ => rfl) (by simp))

theorem chained_lists (rules : r.List) : Lists (chained r) ([·]) :=
  fun before => .bind (atom_lists rules before) fun _ _ listed => .rounds fun n =>
    postfixFrom_gathers rules n listed

theorem unary_lists (rules : r.List) : Lists (unary r) ([·]) := by
  refine fun before => .mark? (fun kind sign => ?_) fun sign => ?_
  · cases kind <;> first | rfl | cases sign
  cases sign with
  | none => exact chained_lists rules before
  | some sign =>
    exact .bind (.operandOf (rules.unary before)) fun _ _ inner =>
      .pure (inner.parts (fun _ => rfl) (by simp [Node.signed]))

section Chains

variable {operator? : TokenKind → Option BinaryOperator} {operand : Parser Node}
  (marks : ∀ kind, (operator? kind).isSome = true → kind.isLeaf = false)

include marks

theorem chainFrom_gathers (lists : Lists operand ([·])) (n : Nat) {left : Node}
    (listed : Node.Listed start [left] before) :
    Gathers before (chainFrom operator? operand n left) fun node after =>
      Node.Listed start [node] after := by
  induction n generalizing before left with
  | zero => exact .pure listed
  | succ n ih =>
    refine .mark? marks fun sign => ?_
    cases sign with
    | none => exact .pure listed
    | some sign =>
      exact .bind (.operandOf (lists _)) fun _ _ right =>
        ih ((listed.append right).parts (fun _ => rfl) (by simp [Node.infixed]))

theorem chain_lists (lists : Lists operand ([·])) : Lists (chain operator? operand) ([·]) :=
  fun before => .bind (lists before) fun _ _ listed => .rounds fun n =>
    chainFrom_gathers marks lists n listed

end Chains

theorem power_lists (rules : r.List) : Lists (power r) ([·]) :=
  chain_lists (fun kind sign => by cases kind <;> first | rfl | cases sign) (unary_lists rules)

theorem product_lists (rules : r.List) : Lists (product r) ([·]) :=
  chain_lists (fun kind sign => by cases kind <;> first | rfl | cases sign) (power_lists rules)

theorem comparison_lists (rules : r.List) : Lists (comparison r) ([·]) := by
  refine fun before => .mark? (isLeaf_of_beq rfl) fun sign => ?_
  cases sign with
  | none =>
    exact chain_lists (fun kind sign => by cases kind <;> first | rfl | cases sign)
      (product_lists rules) before
  | some sign =>
    exact .bind (.operandOf (rules.comparison before)) fun _ _ inner =>
      .pure (inner.parts (fun _ => rfl) (by simp [Node.signed]))

theorem expression_lists (rules : r.List) : Lists (expression r) ([·]) :=
  chain_lists (fun kind sign => by cases kind <;> first | rfl | cases sign) (comparison_lists rules)

/-! ### Statements -/

theorem declaration_lists (rules : r.List) {keyword : Token} :
    Lists (declaration r keyword) ([·]) := fun _ =>
  .name fun _ => .mark rfl fun _ => .bind (rules.expression _) fun _ _ inner =>
    .pure (inner.behind (fun _ => rfl) (by simp))

theorem assignment_gathers (rules : r.List) {name sign : Token} :
    Gathers (before ++ [.name name.lexeme]) (assignment r name sign) fun node after =>
      Node.Listed before [node] after :=
  .bind (.operandOf (rules.expression _)) fun _ _ inner =>
    .pure (inner.behind (fun _ => rfl) (by simp))

theorem exitFunction_lists (rules : r.List) : Lists (exitFunction r first) ([·]) := by
  refine fun before => .look fun _ =>
    .ite (.pure (.parts .nil (fun _ => rfl) rfl)) (.bind atBlockEnd_gathers ?_)
  rintro _ _ rfl
  exact .ite (.pure (.parts .nil (fun _ => rfl) rfl)) (.bind (rules.expression _) fun _ _ inner =>
    .pure (inner.parts (fun _ => rfl) (by simp)))

theorem importModule_lists (rules : r.List) : Lists (importModule r first) ([·]) := by
  refine fun before => .bind (rules.expression before) fun name after inner =>
    .mark? (isLeaf_of_beq rfl) fun named => ?_
  cases named with
  | none => exact .pure (inner.parts (fun _ => rfl) (by simp))
  | some _ =>
    dsimp only
    rw [importAlias, bind_assoc]
    refine .mark? (isLeaf_of_beq rfl) fun star => ?_
    cases star with
    | some star => exact .pure (inner.parts (fun _ => rfl) (by simp))
    | none =>
      dsimp only
      rw [bind_assoc]
      exact .name fun binding => .pure (inner.named (fun _ => rfl) (by simp))

theorem statementOf?_lists (rules : r.List) {token : Token} {rule : Parser Node}
    (found : statementOf? r token = some rule) : token.kind.isLeaf = false ∧ Lists rule ([·]) := by
  unfold statementOf? at found
  split at found
  case h_1 kind => cases found; exact ⟨by rw [kind]; rfl, declaration_lists rules⟩
  case h_2 kind => cases found; exact ⟨by rw [kind]; rfl, declaration_lists rules⟩
  case h_3 kind => cases found; exact ⟨by rw [kind]; rfl, exitFunction_lists rules⟩
  case h_4 kind =>
    cases found
    exact ⟨by rw [kind]; rfl, fun _ => .pure (.parts .nil (fun _ => rfl) rfl)⟩
  case h_5 kind =>
    cases found
    exact ⟨by rw [kind]; rfl, fun _ => .pure (.parts .nil (fun _ => rfl) rfl)⟩
  case h_6 kind => cases found; exact ⟨by rw [kind]; rfl, importModule_lists rules⟩
  case h_7 => cases found

theorem assignmentOperator?_isLeaf {kind : TokenKind}
    (assigns : (assignmentOperator? kind).isSome = true) : kind.isLeaf = false := by
  cases kind <;> first | rfl | cases assigns

theorem statement_lists (rules : r.List) : Lists (statement r) ([·]) := by
  rintro before ⟨taken, previous, _ | ⟨token, rest⟩⟩ scanned node d done
  · rw [statement_of_other (by simp) rfl] at done
    exact expression_lists rules before scanned done
  · cases found : statementOf? r token with
    | some rule =>
      rw [statement_of_rule found] at done
      obtain ⟨mark, lists⟩ := statementOf?_lists rules found
      obtain ⟨read, splits, listed⟩ := lists before (List.forall_mem_cons.mp scanned).2 done
      refine ⟨token :: read, congrArg (token :: ·) splits, ?_⟩
      rwa [List.filterMap_cons_none (Token.leaf?_of_mark mark)]
    | none =>
      by_cases signed : assigns (token :: rest) = true
      · obtain _ | ⟨sign, rest⟩ := rest
        · cases signed
        · rw [statement_of_assigns signed] at done
          simp only [assigns, Bool.and_eq_true, beq_iff_eq] at signed
          obtain ⟨read, splits, listed⟩ :=
            assignment_gathers rules (List.forall_mem_cons.mp (List.forall_mem_cons.mp scanned).2).2 done
          refine ⟨token :: sign :: read, congrArg (token :: sign :: ·) splits, ?_⟩
          rwa [List.filterMap_cons_some (Token.leaf?_of_identifier signed.1),
            List.filterMap_cons_none (Token.leaf?_of_mark (assignmentOperator?_isLeaf signed.2)),
            ← List.singleton_append, ← List.append_assoc]
      · rw [statement_of_other (by simpa using found) (by simpa using signed)] at done
        exact expression_lists rules before scanned done

theorem unfolded_list (n : Nat) : RulesOver.List (unfolded n) := by
  induction n with
  | zero => exact ⟨fun _ => .expected, fun _ => .expected, fun _ => .expected, fun _ => .expected⟩
  | succ n ih => exact ⟨expression_lists ih, comparison_lists ih, unary_lists ih, statement_lists ih⟩

theorem programFrom_gathers {p : Parser Node} (statement : Lists p ([·])) (n : Nat)
    {nodes : List Node} (listed : Node.Listed start nodes.reverse before) :
    Gathers before (programFrom p n nodes) fun nodes after => Node.Listed start nodes after := by
  induction n generalizing before nodes with
  | zero => exact .pure listed
  | succ n ih =>
    refine .skip (.look fun kind => ?_)
    cases kind with
    | none => exact .pure listed
    | some _ =>
      refine .bind (statementLine_lists statement before) fun node _ line => ih ?_
      rw [List.reverse_cons]
      exact listed.append line

/-- A program ends at the end of the file. -/
theorem programLoop_ends {nodes result : List Node} {c d : Cursor}
    (done : programLoop unbounded.statement nodes c = .ok result d) : d.rest = [] := by
  induction size : c.rest.length using Nat.strongRecOn generalizing c nodes with
  | ind k ih =>
  rw [congrFun programLoop_eq nodes, programBody, bind_of_ok (skipNewlines_eq c),
    bind_of_ok (peekKind?_eq _)] at done
  have before := c.length_skipNewlines
  cases here : c.skipNewlines.kind? with
  | none =>
    rw [here] at done
    cases done
    exact List.head?_eq_none_iff.mp (Option.map_eq_none_iff.mp here)
  | some kind =>
    rw [here] at done
    obtain ⟨node, e, line, done⟩ := ok_of_bind done
    have takes := statementLine_takes (unbounded_track .stay (k + 1)).statement
      c.skipNewlines.rest.length (by omega) c.skipNewlines (Nat.lt_succ_self _)
    generalize statementLine unbounded.statement (c.skipNewlines.relocate .stay) = same at takes
    rw [line] at takes
    cases takes with
    | value less => exact ih e.rest.length (by omega) done rfl

end Grammar

/-- A scanner makes tokens with a width, and with literals of their kinds, and closes them. -/
theorem Token.scan_scanned {name text : String} {tokens : List Token}
    (done : Token.scan name text = .ok tokens) :
    ∃ body close, tokens = body ++ [close] ∧ close.kind = .eof ∧
      ∀ token ∈ body, token.kind ≠ .eof ∧ token.Scanned := by
  let cs := Token.expandTabs text.toList
  obtain ⟨found, rfl, tiles⟩ :
      ∃ found, tokens = [].reverse ++ found ∧ Token.Tiles _ [] cs found := Token.scanFrom_tiles done
  obtain ⟨body, close, rfl, ends, _, _, _, wide⟩ := tiles.closed (List.nil_append cs)
  refine ⟨body, close, rfl, ends, fun token inside => ⟨(wide token inside).1, ?_, fun narrow => ?_⟩⟩
  · exact (Token.scan_foundIn done token (List.mem_append_left _ inside) (wide token inside).1).typed
  · exact absurd (wide token inside).2 (by rw [narrow]; exact Nat.lt_irrefl _)

namespace Node

/-- The tree of a text lists what the tokens leave in it: all names, numbers and strings of the
text, once each, in order, with their values and places. -/
theorem ofTokens_leaves {name text : String} {tokens : List Token} {nodes : List Node}
    (scanned : Token.scan name text = .ok tokens) (parsed : ofTokens tokens = .ok nodes) :
    nodes.flatMap leaves = tokens.filterMap Token.leaf? ∧
      ∀ token ∈ tokens, token.leaf?.isSome = token.kind.isLeaf := by
  obtain ⟨body, close, rfl, ends, real⟩ := Token.scan_scanned scanned
  -- the end of file leaves nothing in the tree, and the parser does not get there
  have closes : close.leaf? = none := Token.leaf?_of_mark (by rw [ends]; rfl)
  have start : (Cursor.ofTokens (body ++ [close])).rest = body := by
    rw [Cursor.ofTokens, List.takeWhile_append_of_pos (by simpa using fun token inside => (real token inside).1)]
    simp [ends]
  constructor
  · rw [ofTokens_eq_answer] at parsed
    cases run : parsing (body ++ [close]) with
    | error _ _ => rw [run] at parsed; cases parsed
    | ok found d =>
      rw [run] at parsed
      cases parsed
      have nothing : Listed [] [] [] := .nil
      obtain ⟨read, splits, listed⟩ := Grammar.programFrom_gathers (Grammar.unfolded_list _).statement _
        nothing (start.symm ▸ fun token inside => (real token inside).2) run
      rw [parsing_eq] at run
      rw [start, Grammar.programLoop_ends run, List.append_nil] at splits
      rw [List.filterMap_append, List.filterMap_cons_none closes, List.filterMap_nil, List.append_nil,
        splits]
      exact listed.leaves.symm
  · intro token inside
    rcases List.mem_append.mp inside with inside | inside
    · exact (real token inside).2.leaf?_isSome
    · rw [List.mem_singleton.mp inside, closes, ends]
      rfl

/-- One range leaves its step out, and the other one names it. -/
theorem ofTokens_leaves_ranges :
    let text := "FOR x IN [1 -> n] THEN f.g('q', [0 -> 9 -> 1]) END"
    let spelled : Leaf → String := fun
      | .name text | .string text _ => text
      | .number value _ => Literal.show (.integer (value.toInt64?.getD 0))
    ∃ tokens nodes, Token.scan "m" text = .ok tokens ∧ ofTokens tokens = .ok nodes ∧
      nodes.flatMap leaves = tokens.filterMap Token.leaf? ∧
      (nodes.flatMap leaves).map spelled = ["x", "1", "n", "f", "g", "q", "0", "9", "1"] := by
  intro text spelled
  have found : (ofText "m" text).toOption.map (fun nodes => (nodes.flatMap leaves).map spelled) =
      some ["x", "1", "n", "f", "g", "q", "0", "9", "1"] := by decide +kernel
  cases parsed : ofText "m" text with
  | error d => rw [parsed] at found; cases found
  | ok nodes =>
    rw [parsed] at found
    obtain ⟨tokens, scanned, done⟩ := exists_scan_of_ofText parsed
    exact ⟨tokens, nodes, scanned, done, (ofTokens_leaves scanned done).1, Option.some.inj found⟩

end Node

end BasicScript
