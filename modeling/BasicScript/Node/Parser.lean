import BasicScript.Node.Stream
import BasicScript.Token.Lexer

/-! The grammar. Operators bind, from loose to tight: sums, comparisons together with `NOT`,
products, powers, signs, and what follows an atom: calls, indices and attributes. Operators of one
level group to the left.

The rules that call each other are kept in a record, and each rule is a plain definition over the
record of the rules it may call once it has taken a token. Unfolding that record as often as there
are tokens is therefore enough. -/

set_option autoImplicit false

namespace BasicScript

/-- The rules of the grammar that other rules refer back to. -/
structure RulesOver (σ : Type) where
  expression : ParserOver σ Node
  comparison : ParserOver σ Node
  unary : ParserOver σ Node
  statement : ParserOver σ Node

abbrev Rules := RulesOver Cursor

namespace Grammar

open BasicScript.Parser

def sumOperator? : TokenKind → Option BinaryOperator
  | .plus => some .add
  | .minus => some .subtract
  | _ => none

def comparisonOperator? : TokenKind → Option BinaryOperator
  | .equalEqual => some .equal
  | .bangEqual => some .notEqual
  | .greater => some .greater
  | .less => some .less
  | .greaterEqual => some .greaterEqual
  | .lessEqual => some .lessEqual
  | _ => none

def productOperator? : TokenKind → Option BinaryOperator
  | .star => some .multiply
  | .slash => some .divide
  | .percent => some .modulo
  | _ => none

def powerOperator? : TokenKind → Option BinaryOperator
  | .caret => some .power
  | _ => none

def signOperator? : TokenKind → Option UnaryOperator
  | .plus => some .plus
  | .minus => some .negate
  | _ => none

def assignmentOperator? : TokenKind → Option (Option BinaryOperator)
  | .equal => some none
  | .plusEqual => some (some .add)
  | .minusEqual => some (some .subtract)
  | .starEqual => some (some .multiply)
  | .slashEqual => some (some .divide)
  | _ => none

/-! ### Separators and blocks -/

variable {σ : Type} [TokenSource σ]

def blockEnds : List Keyword := [.end, .else, .elseIf]

def atKeyword (keywords : List Keyword) : ParserOver σ Bool := do
  match ← peekKind? with
  | some (.keyword k) => return keywords.contains k
  | _ => return false

/-- Nothing more of a statement can follow here: the file or a block ends. -/
def atBlockEnd : ParserOver σ Bool := do
  match ← peekKind? with
  | none => return true
  | some _ => atKeyword blockEnds

/-- A statement and its separator; a block end or the end of the file also separates. -/
def statementLine (statement : ParserOver σ Node) : ParserOver σ Node := do
  let node ← statement
  match ← take? .newline with
  | some _ => return node
  | none => if ← atBlockEnd then return node else expected .statementEnd

/-- Statements up to one of `terminators`, which is left standing; `body` is in reverse. -/
def blockFrom (r : RulesOver σ) (terminators : List Keyword) (opener : Keyword) :
    Nat → List Node → ParserOver σ (List Node)
  | 0, _ => expected (.blockEnd terminators opener)
  | fuel + 1, body => do
    skipNewlines
    if ← atKeyword terminators then return body.reverse
    match ← peekKind? with
    | none => expected (.blockEnd terminators opener)
    | some _ => blockFrom r terminators opener fuel ((← statementLine r.statement) :: body)

def block (r : RulesOver σ) (terminators : List Keyword) (opener : Keyword) : ParserOver σ (List Node) := do
  blockFrom r terminators opener (← rounds) []

def blockClose (opener : Keyword) : ParserOver σ Token := take (.keyword .end) (.endOf opener)

/-- One `item` and all that follow after commas; newlines are free around the commas. -/
def itemsFrom {α : Type} (item : ParserOver σ α) : Nat → List α → ParserOver σ (List α)
  | 0, _ => expected .expression
  | fuel + 1, items => do
    let items := (← item) :: items
    skipNewlines
    match ← take? .comma with
    | none => return items.reverse
    | some _ =>
      skipNewlines
      itemsFrom item fuel items

def itemsBefore {α : Type} (close : TokenKind) (item : ParserOver σ α) : ParserOver σ (List α) := do
  skipNewlines
  if (← peekKind?) = some close then return []
  itemsFrom item (← rounds) []

/-! ### Atoms -/

def number (token : Token) : ParserOver σ Node :=
  match token.literal with
  | some (.integer n) => return .number (.int n) token.span
  | some (.float f) => return .number (.float f) token.span
  | _ => fail (.invalidLiteral token.lexeme) token.span

def string (token : Token) : Node :=
  match token.literal with
  | some (.text s) => .string s token.span
  | _ => .string "" token.span

def group (r : RulesOver σ) : ParserOver σ Node := do
  skipNewlines
  let inner ← r.expression
  skipNewlines
  let _ ← take .rightParen .groupEnd
  return inner

/-- The step of a range that names none: one, at the end of the range's bound. -/
def defaultStep (bound : Node) : Node := .number (.int 1) (.single bound.span.file bound.span.stop)

def range (r : RulesOver σ) (first : Span) (start : Node) : ParserOver σ Node := do
  let stop ← r.expression
  skipNewlines
  let step ← match ← take? .arrow with
    | none => pure (defaultStep stop)
    | some _ => do
      let step ← r.expression
      skipNewlines
      pure step
  let last ← take .rightBracket .rangeEnd
  return .range start stop step (first.upTo last.span)

def list (r : RulesOver σ) (first : Span) : ParserOver σ Node := do
  skipNewlines
  match ← take? .rightBracket with
  | some last => return .list [] (first.upTo last.span)
  | none =>
    -- lists and ranges are told apart behind their first expression
    let start ← r.expression
    skipNewlines
    match ← take? .arrow with
    | some _ => range r first start
    | none =>
      let items ← match ← take? .comma with
        | none => pure []
        | some _ => do
          skipNewlines
          itemsFrom r.expression (← rounds) []
      let last ← take .rightBracket .listEnd
      return .list (start :: items) (first.upTo last.span)

def entry (r : RulesOver σ) : ParserOver σ (Node × Node) := do
  let key ← r.expression
  let _ ← take .colon .keyColon
  skipNewlines
  return (key, ← r.expression)

def dictionary (r : RulesOver σ) (first : Span) : ParserOver σ Node := do
  let entries ← itemsBefore .rightBrace (entry r)
  let last ← take .rightBrace .dictionaryEnd
  return .dictionary entries (first.upTo last.span)

def branch (r : RulesOver σ) (terminators : List Keyword) (opener : Keyword) :
    ParserOver σ (Node × List Node) := do
  let condition ← r.expression
  let _ ← take (.keyword .then) (.thenOf opener)
  return (condition, ← block r terminators opener)

def elseIfsFrom (r : RulesOver σ) : Nat → List (Node × List Node) → ParserOver σ (List (Node × List Node))
  | 0, branches => return branches.reverse
  | fuel + 1, branches => do
    match ← take? (.keyword .elseIf) with
    | none => return branches.reverse
    | some _ => elseIfsFrom r fuel ((← branch r blockEnds .elseIf) :: branches)

def ifElse (r : RulesOver σ) (first : Span) : ParserOver σ Node := do
  let head ← branch r blockEnds .if
  let branches ← elseIfsFrom r (← rounds) [head]
  let otherwise ← match ← take? (.keyword .else) with
    | none => pure none
    | some _ => some <$> block r [.end] .else
  let last ← blockClose .if
  return .ifElse branches otherwise (first.upTo last.span)

def whileLoop (r : RulesOver σ) (first : Span) : ParserOver σ Node := do
  let (condition, body) ← branch r [.end] .while
  let last ← blockClose .while
  return .whileLoop condition body (first.upTo last.span)

def forLoop (r : RulesOver σ) (first : Span) : ParserOver σ Node := do
  let item ← take .identifier .loopVariable
  let _ ← take (.keyword .in) .loopIn
  let (iterable, body) ← branch r [.end] .for
  let last ← blockClose .for
  return .forLoop item.lexeme item.span iterable body (first.upTo last.span)

def parametersFrom : Nat → List String → ParserOver σ (List String)
  | 0, _ => expected .parameterName
  | fuel + 1, names => do
    let param ← take .identifier .parameterName
    if names.contains param.lexeme then fail (.duplicateParameter param.lexeme) param.span
    match ← take? .comma with
    | none => return (param.lexeme :: names).reverse
    | some _ => parametersFrom fuel (param.lexeme :: names)

def parameters : ParserOver σ (List String) := do
  if (← peekKind?) = some .rightParen then return []
  parametersFrom (← rounds) []

def function (r : RulesOver σ) (first : Span) : ParserOver σ Node := do
  let name ← take? .identifier
  let _ ← take .leftParen .parameterStart
  let params ← parameters
  let _ ← take .rightParen .parameterEnd
  let body ← block r [.end] .function
  let last ← blockClose .function
  return .function (name.map Token.lexeme) params body (first.upTo last.span)

/-- The rest of an atom whose first token has been taken, for each token that begins one. -/
def atomOf? (r : RulesOver σ) (token : Token) : Option (ParserOver σ Node) :=
  match token.kind with
  | .integer | .float => some (number token)
  | .string => some (return string token)
  | .identifier => some (return .access token.lexeme token.span)
  | .leftParen => some (group r)
  | .leftBracket => some (list r token.span)
  | .leftBrace => some (dictionary r token.span)
  | .keyword .if => some (ifElse r token.span)
  | .keyword .while => some (whileLoop r token.span)
  | .keyword .for => some (forLoop r token.span)
  | .keyword .function => some (function r token.span)
  | _ => none

def atom (r : RulesOver σ) : ParserOver σ Node := do
  let place ← get
  match TokenSource.next? place with
  | none => expected .expression
  | some token =>
    match atomOf? r token with
    | none => expected .expression
    | some rest => do
      set (TokenSource.advance place)
      rest

/-! ### Operators -/

def call (r : RulesOver σ) (callee : Node) : ParserOver σ Node := do
  let args ← itemsBefore .rightParen r.expression
  let last ← take .rightParen .argumentEnd
  return .call callee args (callee.span.upTo last.span)

/-- Behind the opening bracket of an index: the base with its index, and its closing bracket. -/
def index (r : RulesOver σ) (base : Node) : ParserOver σ (Node × Span) := do
  if (← peekKind?) = some .rightBracket then
    -- a fault of its own, since what stands here is no bad expression but none
    fail (.expected .indexExpression "']'") (TokenSource.faultSpan (← get))
  let index ← r.expression
  let last ← take .rightBracket .indexEnd
  return (index, base.span.upTo last.span)

/-- What follows an atom. An assignment to an indexed place ends the chain. -/
def postfixFrom (r : RulesOver σ) : Nat → Node → ParserOver σ Node
  | 0, node => return node
  | fuel + 1, node => do
    match ← takeIf? fun kind => kind == .leftParen || kind == .leftBracket || kind == .dot with
    | none => return node
    | some opening =>
      match opening.kind with
      | .leftParen => postfixFrom r fuel (← call r node)
      | .leftBracket =>
        let (index, span) ← index r node
        match ← take? .equal with
        | none => postfixFrom r fuel (.getIndex node index span)
        | some equals =>
          let value ← operandOf equals r.expression
          return .setIndex node index value (node.span.upTo value.span)
      | _ =>
        let name ← take .identifier .attributeName
        postfixFrom r fuel (.member node name.lexeme (node.span.upTo name.span))

def chained (r : RulesOver σ) : ParserOver σ Node := do
  let node ← atom r
  postfixFrom r (← rounds) node

def unary (r : RulesOver σ) : ParserOver σ Node := do
  match ← takeIf? fun kind => (signOperator? kind).isSome with
  | none => chained r
  | some sign =>
    let operand ← operandOf sign r.unary
    return .signed sign.span ((signOperator? sign.kind).getD .plus) operand

def chainFrom (operator? : TokenKind → Option BinaryOperator) (operand : ParserOver σ Node) :
    Nat → Node → ParserOver σ Node
  | 0, left => return left
  | fuel + 1, left => do
    match ← takeIf? fun kind => (operator? kind).isSome with
    | none => return left
    | some sign =>
      let right ← operandOf sign operand
      chainFrom operator? operand fuel
        (.infixed left ((operator? sign.kind).getD .add) right)

def chain (operator? : TokenKind → Option BinaryOperator) (operand : ParserOver σ Node) :
    ParserOver σ Node := do
  let left ← operand
  chainFrom operator? operand (← rounds) left

def power (r : RulesOver σ) : ParserOver σ Node := chain powerOperator? (unary r)

def product (r : RulesOver σ) : ParserOver σ Node := chain productOperator? (power r)

def comparison (r : RulesOver σ) : ParserOver σ Node := do
  match ← take? (.keyword .not) with
  | none => chain comparisonOperator? (product r)
  -- the operand is all of a comparison
  | some sign => return .signed sign.span .not (← operandOf sign r.comparison)

def expression (r : RulesOver σ) : ParserOver σ Node := chain sumOperator? (comparison r)

/-! ### Statements -/

def declaration (r : RulesOver σ) (keyword : Token) : ParserOver σ Node := do
  let name ← take .identifier (.declaredName keyword.lexeme)
  let _ ← take .equal (.initialValue keyword.lexeme name.lexeme)
  let value ← r.expression
  return .declare name.lexeme (keyword.kind == .keyword .const) value (keyword.span.upTo value.span)

def assignment (r : RulesOver σ) (name : Token) (sign : Token) : ParserOver σ Node := do
  let value ← operandOf sign r.expression
  return .assign name.lexeme ((assignmentOperator? sign.kind).getD none) value
    (name.span.upTo value.span)

def exitFunction (r : RulesOver σ) (first : Span) : ParserOver σ Node := do
  -- a value has to begin on the line of the keyword
  if (← peekKind?) = some .newline then return .exitFunction none first
  if ← atBlockEnd then return .exitFunction none first
  let value ← r.expression
  return .exitFunction (some value) (first.upTo value.span)

def importAlias : ParserOver σ (ImportAlias × Span) := do
  match ← take? .star with
  | some star => return (.wildcard, star.span)
  | none =>
    let name ← take .identifier .importName
    return (.name name.lexeme, name.span)

def importModule (r : RulesOver σ) (first : Span) : ParserOver σ Node := do
  let name ← r.expression
  match ← take? (.keyword .as) with
  | none => return .importModule name none (first.upTo name.span)
  | some _ =>
    let (binding, last) ← importAlias
    return .importModule name (some binding) (first.upTo last)

def statementOf? (r : RulesOver σ) (token : Token) : Option (ParserOver σ Node) :=
  match token.kind with
  | .keyword .let | .keyword .const => some (declaration r token)
  | .keyword .return => some (exitFunction r token.span)
  | .keyword .break => some (return .exitLoop token.span)
  | .keyword .continue => some (return .nextTurn token.span)
  | .keyword .import => some (importModule r token.span)
  | _ => none

def assignmentSign? (token : Token) (place : σ) : Option Token :=
  if token.kind = .identifier then
    (TokenSource.second? place).filter fun sign => (assignmentOperator? sign.kind).isSome
  else none

def statement (r : RulesOver σ) : ParserOver σ Node := do
  let place ← get
  match TokenSource.next? place with
  | none => expression r
  | some token =>
    match statementOf? r token with
    | some parser => do
      set (TokenSource.advance place)
      parser
    | none =>
      -- an assignment shows only at its second token
      match assignmentSign? token place with
      | some sign => do
        set (TokenSource.advance (TokenSource.advance place))
        assignment r token sign
      | none => expression r

def next (r : RulesOver σ) : RulesOver σ :=
  ⟨expression r, comparison r, unary r, statement r⟩

/-- The rules unfolded `depth` times. Below that depth nothing is recognised; as each rule takes a
token before it refers back, more than as many levels as there are tokens are never reached. -/
def unfolded : Nat → RulesOver σ
  | 0 => ⟨expected .expression, expected .expression, expected .expression, expected .expression⟩
  | depth + 1 => next (unfolded depth)

def programFrom (statement : ParserOver σ Node) : Nat → List Node → ParserOver σ (List Node)
  | 0, nodes => return nodes.reverse
  | fuel + 1, nodes => do
    skipNewlines
    match ← peekKind? with
    | none => return nodes.reverse
    | some _ => programFrom statement fuel ((← statementLine statement) :: nodes)

end Grammar

def Node.ofTokens (tokens : List Token) : Except Diagnostic (List Node) :=
  let start := Stream.ofTokens tokens
  let bound := TokenSource.left start + 1
  let rules := Grammar.unfolded bound
  match (Grammar.programFrom rules.statement bound []).run start with
  | .ok nodes _ => .ok nodes
  | .error d _ => .error d

def Node.ofText (name text : String) : Except Diagnostic (List Node) := do
  Node.ofTokens (← Token.scan name text)

end BasicScript
