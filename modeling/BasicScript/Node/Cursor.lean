import BasicScript.Diagnostic
import BasicScript.Node

/-! Places in a list of tokens, and the steps that move them. The grammar asks little of the place
at which it stands, so its rules are written for all kinds of places. A failed step leaves the place
where it was when it failed. -/

set_option autoImplicit false

namespace BasicScript

/-- What a parser asks of the place at which it stands. -/
class TokenSource (σ : Type) where
  taken : σ → Nat
  /-- How many tokens there are in front of the end of the file. -/
  left : σ → Nat
  /-- The next token; none at the end of the file. -/
  next? : σ → Option Token
  second? : σ → Option Token
  /-- Behind the next token; the end of the file is never passed. -/
  advance : σ → σ
  /-- Where an unexpected token is reported: its own span, and at the end of the file the place
  just behind the last token. -/
  faultSpan : σ → Span

namespace TokenSource

variable {σ : Type} [TokenSource σ]

def kind? (place : σ) : Option TokenKind := (next? place).map Token.kind

def describe (place : σ) : String := ((next? place).map Token.describe).getD "end of file"

def skipNewlines : Nat → σ → σ
  | 0, place => place
  | n + 1, place => if kind? place = some .newline then skipNewlines n (advance place) else place

end TokenSource

abbrev ParserOver (σ : Type) := EStateM Diagnostic σ

namespace Parser

variable {σ α : Type}

def fail (fault : Fault) (span : Span) : ParserOver σ α := throw ⟨fault, span, [], []⟩

variable [TokenSource σ]

def expected (what : Expected) : ParserOver σ α := do
  let place ← get
  fail (.expected what (TokenSource.describe place)) (TokenSource.faultSpan place)

def peekKind? : ParserOver σ (Option TokenKind) := return TokenSource.kind? (← get)

def takeIf? (wanted : TokenKind → Bool) : ParserOver σ (Option Token) := do
  let place ← get
  match TokenSource.next? place with
  | some token =>
    if wanted token.kind then set (TokenSource.advance place); return some token else return none
  | none => return none

def take? (kind : TokenKind) : ParserOver σ (Option Token) := takeIf? (· == kind)

def take (kind : TokenKind) (what : Expected) : ParserOver σ Token := do
  match ← take? kind with
  | some token => return token
  | none => expected what

def skipNewlines : ParserOver σ Unit :=
  modify fun place => TokenSource.skipNewlines (TokenSource.left place) place

/-- How many rounds a loop can take that takes a token in each. -/
def rounds : ParserOver σ Nat := return TokenSource.left (← get) + 1

/-- Parse what `operator` asks for. If that fails at its first token the fault names the
operator. -/
def operandOf (operator : Token) (operand : ParserOver σ α) : ParserOver σ α := do
  let before ← get
  try operand
  catch d =>
    let after ← get
    if TokenSource.taken after = TokenSource.taken before then
      fail (.expected (.operandOf operator.lexeme) (TokenSource.describe after)) d.span
    else throw d

end Parser

/-! ### Cursors -/

/-- A place in a list of tokens without an end of file: the end of the list is the end of the
file. -/
structure Cursor where
  taken : Nat
  previous : Option Token
  rest : List Token
  deriving DecidableEq, Inhabited

namespace Cursor

def ofTokens (tokens : List Token) : Cursor :=
  ⟨0, none, tokens.takeWhile fun t => t.kind ≠ .eof⟩

def kind? (c : Cursor) : Option TokenKind := c.rest.head?.map Token.kind

def describe (c : Cursor) : String := (c.rest.head?.map Token.describe).getD "end of file"

def faultSpan (c : Cursor) : Span :=
  match c.rest, c.previous with
  | token :: _, _ => token.span
  | [], some last => .single last.span.file last.span.stop
  | [], none => .synthetic "<empty>"

def advance (c : Cursor) : Cursor :=
  match c.rest with
  | [] => c
  | token :: rest => ⟨c.taken + 1, some token, rest⟩

def skipNewlines (c : Cursor) : Cursor :=
  match c with
  | ⟨taken, previous, rest⟩ => go rest taken previous
where
  go : List Token → Nat → Option Token → Cursor
    | [], taken, previous => ⟨taken, previous, []⟩
    | token :: rest, taken, previous =>
      if token.kind = .newline then go rest (taken + 1) (some token)
      else ⟨taken, previous, token :: rest⟩

instance : TokenSource Cursor where
  taken := taken
  left c := c.rest.length
  next? c := c.rest.head?
  second? c := c.rest[1]?
  advance := advance
  faultSpan := faultSpan

end Cursor

abbrev Parser := ParserOver Cursor

end BasicScript
