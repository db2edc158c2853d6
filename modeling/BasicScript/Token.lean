import BasicScript.Number
import BasicScript.Source

/-! Tokens: the words, literals and signs that a source text is made of. -/

set_option autoImplicit false

namespace BasicScript

inductive Keyword where
  | let | const | if | then | elseIf | else | end | while | for | in | function | return
  | break | continue | import | as | not
  deriving DecidableEq, Inhabited

namespace Keyword

def all : List Keyword :=
  [.let, .const, .if, .then, .elseIf, .else, .end, .while, .for, .in, .function, .return,
   .break, .continue, .import, .as, .not]

def word : Keyword → String
  | .let => "LET"
  | .const => "CONST"
  | .if => "IF"
  | .then => "THEN"
  | .elseIf => "ELSEIF"
  | .else => "ELSE"
  | .end => "END"
  | .while => "WHILE"
  | .for => "FOR"
  | .in => "IN"
  | .function => "FUNCTION"
  | .return => "RETURN"
  | .break => "BREAK"
  | .continue => "CONTINUE"
  | .import => "IMPORT"
  | .as => "AS"
  | .not => "NOT"

def name : Keyword → String
  | .let => "Let"
  | .const => "Const"
  | .if => "If"
  | .then => "Then"
  | .elseIf => "ElseIf"
  | .else => "Else"
  | .end => "End"
  | .while => "While"
  | .for => "For"
  | .in => "In"
  | .function => "Function"
  | .return => "Return"
  | .break => "Break"
  | .continue => "Continue"
  | .import => "Import"
  | .as => "As"
  | .not => "Not"

def ofWord? (text : String) : Option Keyword := all.find? fun k => k.word == text

end Keyword

inductive TokenKind where
  | newline | eof
  | keyword (k : Keyword)
  | identifier
  | integer | float | string
  | plus | plusEqual | minus | minusEqual | arrow | star | starEqual | slash | slashEqual
  | caret | percent | equal
  | equalEqual | bangEqual | greater | greaterEqual | less | lessEqual
  | leftParen | rightParen | leftBracket | rightBracket | leftBrace | rightBrace
  | comma | dot | colon
  deriving DecidableEq, Inhabited

def TokenKind.name : TokenKind → String
  | .newline => "Newline"
  | .eof => "Eof"
  | .keyword k => "Keyword(" ++ k.name ++ ")"
  | .identifier => "Identifier"
  | .integer => "Integer"
  | .float => "Float"
  | .string => "String"
  | .plus => "Plus"
  | .plusEqual => "PlusEqual"
  | .minus => "Minus"
  | .minusEqual => "MinusEqual"
  | .arrow => "Arrow"
  | .star => "Star"
  | .starEqual => "StarEqual"
  | .slash => "Slash"
  | .slashEqual => "SlashEqual"
  | .caret => "Caret"
  | .percent => "Percent"
  | .equal => "Equal"
  | .equalEqual => "EqualEqual"
  | .bangEqual => "BangEqual"
  | .greater => "Greater"
  | .greaterEqual => "GreaterEqual"
  | .less => "Less"
  | .lessEqual => "LessEqual"
  | .leftParen => "LeftParen"
  | .rightParen => "RightParen"
  | .leftBracket => "LeftBracket"
  | .rightBracket => "RightBracket"
  | .leftBrace => "LeftBrace"
  | .rightBrace => "RightBrace"
  | .comma => "Comma"
  | .dot => "Dot"
  | .colon => "Colon"

inductive Literal where
  | integer (n : Int64)
  | float (f : Float)
  | text (s : String)
  deriving DecidableEq, Inhabited

/-- The value of a literal as text; a double without a fraction shows no point. -/
def Literal.show : Literal → String
  | .integer n => toString n.toInt
  | .float f => Layout.literal.write Decimal.shortest f
  | .text s => s

structure Token where
  kind : TokenKind
  lexeme : String
  literal : Option Literal
  span : Span
  deriving DecidableEq, Inhabited

def Token.describe (token : Token) : String :=
  match token.kind with
  | .newline => "newline"
  | .eof => "end of file"
  | .keyword k => "keyword '" ++ k.word ++ "'"
  | .identifier => "identifier '" ++ token.lexeme ++ "'"
  | .integer | .float => "number '" ++ token.lexeme ++ "'"
  | .string => "string"
  | _ => "'" ++ token.lexeme ++ "'"

end BasicScript
