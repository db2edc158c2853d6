import BasicScript.Proofs.Node.Level

/-! The tokens that spell a syntax tree. Which operands stand in parentheses is left open by a
parameter; `Place.tightens` puts them where an operand is too loose for its place, and
`Place.guards` also around a negation in front of a comparison, since all that `NOT` is followed by
belongs to it. -/

set_option autoImplicit false

namespace BasicScript

/-! ### Tokens -/

namespace TokenKind

def spelling : TokenKind → String
  | .newline => "\n"
  | .keyword k => k.word
  | .plus => "+"
  | .plusEqual => "+="
  | .minus => "-"
  | .minusEqual => "-="
  | .arrow => "->"
  | .star => "*"
  | .starEqual => "*="
  | .slash => "/"
  | .slashEqual => "/="
  | .caret => "^"
  | .percent => "%"
  | .equal => "="
  | .equalEqual => "=="
  | .bangEqual => "!="
  | .greater => ">"
  | .greaterEqual => ">="
  | .less => "<"
  | .lessEqual => "<="
  | .leftParen => "("
  | .rightParen => ")"
  | .leftBracket => "["
  | .rightBracket => "]"
  | .leftBrace => "\x7b"
  | .rightBrace => "\x7d"
  | .comma => ","
  | .dot => "."
  | .colon => ":"
  | .eof | .identifier | .integer | .float | .string => ""

end TokenKind

namespace Token

def ofKind (kind : TokenKind) : Token := ⟨kind, kind.spelling, none, .synthetic ""⟩

abbrev ofKeyword (keyword : Keyword) : Token := ofKind (.keyword keyword)

def ofName (name : String) : Token := ⟨.identifier, name, none, .synthetic ""⟩

def ofLiteral (kind : TokenKind) (value : Literal) : Token :=
  ⟨kind, value.show, some value, .synthetic ""⟩

def ofNumber : Number → Token
  | .int n => ofLiteral .integer (.integer n)
  | .float f => ofLiteral .float (.float f)

end Token

/-! ### Operators and their levels -/

namespace BinaryOperator

def kind : BinaryOperator → TokenKind
  | add => .plus
  | subtract => .minus
  | multiply => .star
  | divide => .slash
  | power => .caret
  | modulo => .percent
  | equal => .equalEqual
  | notEqual => .bangEqual
  | greater => .greater
  | less => .less
  | greaterEqual => .greaterEqual
  | lessEqual => .lessEqual

def level : BinaryOperator → Level
  | add | subtract => .sum
  | equal | notEqual | greater | less | greaterEqual | lessEqual => .comparison
  | multiply | divide | modulo => .product
  | power => .power

theorem operator?_kind (operator : BinaryOperator) :
    operator.level.operator? operator.kind = some operator := by cases operator <;> rfl

end BinaryOperator

namespace UnaryOperator

def kind : UnaryOperator → TokenKind
  | plus => .plus
  | negate => .minus
  | not => .keyword .not

def level : UnaryOperator → Level
  | plus | negate => .sign
  | not => .comparison

end UnaryOperator

def compoundOperators : List (Option BinaryOperator) :=
  [none, some .add, some .subtract, some .multiply, some .divide]

def assignmentKind : Option BinaryOperator → TokenKind
  | some .add => .plusEqual
  | some .subtract => .minusEqual
  | some .multiply => .starEqual
  | some .divide => .slashEqual
  | _ => .equal

namespace Node

def level : Node → Level
  | .binary _ operator _ _ => operator.level
  | .unary operator _ _ => operator.level
  | .setIndex .. => .assignment
  | .getIndex .. | .member .. | .call .. => .chained
  | _ => .atom

def negates : Node → Bool
  | .unary .not _ _ => true
  | _ => false

end Node

def Level.tighter : Level → Level
  | assignment => sum
  | sum => comparison
  | comparison => product
  | product => power
  | power => sign
  | sign => chained
  | chained | atom => atom

inductive Place where
  | left (operator : BinaryOperator)
  | right (operator : BinaryOperator)
  | behind (operator : UnaryOperator)
  | base
  deriving DecidableEq

namespace Place

/-- The loosest level that stands here without parentheses. -/
def level : Place → Level
  | left operator => operator.level
  | right operator => operator.level.tighter
  | behind operator => operator.level
  | base => .chained

def tightens (place : Place) (node : Node) : Bool := node.level.rank < place.level.rank

/-- What stands here would be the operand of a negation that it is meant to be compared with. -/
def negated (place : Place) (node : Node) : Bool :=
  match place with
  | left operator => operator.level = .comparison && node.negates
  | _ => false

def guards (place : Place) (node : Node) : Bool := place.tightens node || place.negated node

end Place

/-! ### Trees -/

namespace Node

section

variable (wraps : Place → Node → Bool)

abbrev commas (items : List (List Token)) : List Token := [.ofKind .comma].intercalate items

abbrev lines (statements : List (List Token)) : List Token := [.ofKind .newline].intercalate statements

abbrev enclosed (opening : TokenKind) (tokens : List Token) (closing : TokenKind) : List Token :=
  .ofKind opening :: (tokens ++ [.ofKind closing])

def parenthesized (wrapped : Bool) (tokens : List Token) : List Token :=
  if wrapped then enclosed .leftParen tokens .rightParen else tokens

mutual

@[simp] def spell : Node → List Token
  | .number value _ => [.ofNumber value]
  | .string value _ => [.ofLiteral .string (.text value)]
  | .binary left operator right _ =>
    parenthesized (wraps (.left operator) left) (spell left) ++
      .ofKind operator.kind :: parenthesized (wraps (.right operator) right) (spell right)
  | .unary operator operand _ =>
    .ofKind operator.kind :: parenthesized (wraps (.behind operator) operand) (spell operand)
  | .access name _ => [.ofName name]
  | .declare name constant value _ =>
    .ofKeyword (if constant then .const else .let) :: .ofName name :: .ofKind .equal :: spell value
  | .assign name compound value _ => .ofName name :: .ofKind (assignmentKind compound) :: spell value
  | .list items _ =>
    enclosed .leftBracket (commas (spellAll items)) .rightBracket
  | .dictionary entries _ =>
    enclosed .leftBrace (commas (spellEntries entries)) .rightBrace
  | .getIndex base index _ =>
    parenthesized (wraps .base base) (spell base) ++
      enclosed .leftBracket (spell index) .rightBracket
  | .setIndex base index value _ =>
    parenthesized (wraps .base base) (spell base) ++
      .ofKind .leftBracket :: (spell index ++ .ofKind .rightBracket :: .ofKind .equal :: spell value)
  | .member base name _ =>
    parenthesized (wraps .base base) (spell base) ++ [.ofKind .dot, .ofName name]
  | .function name params body _ =>
    .ofKeyword .function :: ((name.map .ofName).toList ++ .ofKind .leftParen ::
      (commas (params.map ([.ofName ·])) ++ .ofKind .rightParen ::
        (lines (spellAll body) ++ [.ofKeyword .end])))
  | .call callee args _ =>
    parenthesized (wraps .base callee) (spell callee) ++
      enclosed .leftParen (commas (spellAll args)) .rightParen
  | .ifElse branches otherwise _ =>
    .ofKeyword .if :: ([.ofKeyword .elseIf].intercalate (spellBranches branches) ++
      (spellBlock otherwise ++ [.ofKeyword .end]))
  | .whileLoop condition body _ =>
    .ofKeyword .while :: (spell condition ++
      .ofKeyword .then :: (lines (spellAll body) ++ [.ofKeyword .end]))
  | .forLoop item _ iterable body _ =>
    .ofKeyword .for :: .ofName item :: .ofKeyword .in :: (spell iterable ++
      .ofKeyword .then :: (lines (spellAll body) ++ [.ofKeyword .end]))
  | .exitFunction none _ => [.ofKeyword .return]
  | .exitFunction (some value) _ => .ofKeyword .return :: spell value
  | .exitLoop _ => [.ofKeyword .break]
  | .nextTurn _ => [.ofKeyword .continue]
  | .importModule target none _ => .ofKeyword .import :: spell target
  | .importModule target (some .wildcard) _ =>
    .ofKeyword .import :: (spell target ++ [.ofKeyword .as, .ofKind .star])
  | .importModule target (some (.name name)) _ =>
    .ofKeyword .import :: (spell target ++ [.ofKeyword .as, .ofName name])
  | .range start stop step _ =>
    .ofKind .leftBracket :: (spell start ++ .ofKind .arrow ::
      (spell stop ++ .ofKind .arrow :: (spell step ++ [.ofKind .rightBracket])))

def spellAll : List Node → List (List Token)
  | [] => []
  | node :: rest => spell node :: spellAll rest

def spellEntries : List (Node × Node) → List (List Token)
  | [] => []
  | (key, value) :: rest => (spell key ++ .ofKind .colon :: spell value) :: spellEntries rest

def spellBranches : List (Node × List Node) → List (List Token)
  | [] => []
  | (condition, body) :: rest =>
    (spell condition ++ .ofKeyword .then :: lines (spellAll body)) ::
      spellBranches rest

def spellBlock : Option (List Node) → List Token
  | none => []
  | some body => .ofKeyword .else :: lines (spellAll body)

end

def spellEntry (entry : Node × Node) : List Token :=
  spell wraps entry.1 ++ .ofKind .colon :: spell wraps entry.2

def spellLines (nodes : List Node) : List Token := lines (nodes.map (spell wraps))

def spellBranch (branch : Node × List Node) : List Token :=
  spell wraps branch.1 ++ .ofKeyword .then :: spellLines wraps branch.2

theorem spellAll_eq_map (nodes : List Node) : spellAll wraps nodes = nodes.map (spell wraps) := by
  induction nodes with
  | nil => rfl
  | cons node rest ih => simp only [spellAll, ih, List.map_cons]

theorem spellEntries_eq_map (entries : List (Node × Node)) :
    spellEntries wraps entries = entries.map (spellEntry wraps) := by
  induction entries with
  | nil => rfl
  | cons entry rest ih => simp only [spellEntries, ih, List.map_cons, spellEntry]

theorem spellBranches_eq_map (branches : List (Node × List Node)) :
    spellBranches wraps branches = branches.map (spellBranch wraps) := by
  induction branches with
  | nil => rfl
  | cons branch rest ih =>
    simp only [spellBranches, ih, List.map_cons, spellBranch, spellLines, spellAll_eq_map]

end

/-! ### What the syntax allows -/

mutual

/-- Whether the syntax has a place for the node as a statement, or as an expression. Names and
literals are not restricted, since a token may carry any of them. -/
def fits (asStatement : Bool) : Node → Bool
  | .number _ _ | .string _ _ | .access _ _ => true
  | .binary left _ right _ => left.fits false && right.fits false
  | .unary _ operand _ => operand.fits false
  | .declare _ _ value _ => asStatement && value.fits false
  | .assign _ compound value _ => asStatement && compoundOperators.contains compound && value.fits false
  | .list items _ => fitAll false items
  | .dictionary entries _ => fitEntries entries
  | .getIndex base index _ => base.fits false && index.fits false
  | .setIndex base index value _ => base.fits false && index.fits false && value.fits false
  | .member base _ _ => base.fits false
  | .function _ params body _ => params.Nodup && fitAll true body
  | .call callee args _ => callee.fits false && fitAll false args
  | .ifElse branches otherwise _ => !branches.isEmpty && fitBranches branches && fitBlock otherwise
  | .whileLoop condition body _ => condition.fits false && fitAll true body
  | .forLoop _ _ iterable body _ => iterable.fits false && fitAll true body
  | .exitFunction none _ | .exitLoop _ | .nextTurn _ => asStatement
  | .exitFunction (some value) _ => asStatement && value.fits false
  | .importModule target _ _ => asStatement && target.fits false
  | .range start stop step _ => start.fits false && stop.fits false && step.fits false

def fitAll (asStatement : Bool) : List Node → Bool
  | [] => true
  | node :: rest => node.fits asStatement && fitAll asStatement rest

def fitEntries : List (Node × Node) → Bool
  | [] => true
  | (key, value) :: rest => key.fits false && value.fits false && fitEntries rest

def fitBranches : List (Node × List Node) → Bool
  | [] => true
  | (condition, body) :: rest => condition.fits false && fitAll true body && fitBranches rest

def fitBlock : Option (List Node) → Bool
  | none => true
  | some body => fitAll true body

end

theorem fitAll_iff {asStatement : Bool} {nodes : List Node} :
    fitAll asStatement nodes = true ↔ ∀ node ∈ nodes, node.fits asStatement = true := by
  induction nodes with
  | nil => simp [fitAll]
  | cons node rest ih => simp [fitAll, ih]

theorem fitEntries_iff {entries : List (Node × Node)} : fitEntries entries = true ↔
    ∀ entry ∈ entries, entry.1.fits false = true ∧ entry.2.fits false = true := by
  induction entries with
  | nil => simp [fitEntries]
  | cons entry rest ih => simp [fitEntries, ih]

theorem fitBranches_iff {branches : List (Node × List Node)} : fitBranches branches = true ↔
    ∀ branch ∈ branches, branch.1.fits false = true ∧ ∀ node ∈ branch.2, node.fits true = true := by
  induction branches with
  | nil => simp [fitBranches]
  | cons branch rest ih => simp [fitBranches, ih, fitAll_iff]

theorem fitBlock_iff {otherwise : Option (List Node)} : fitBlock otherwise = true ↔
    ∀ body ∈ otherwise, ∀ node ∈ body, node.fits true = true := by
  cases otherwise <;> simp [fitBlock, fitAll_iff]

end Node

end BasicScript
