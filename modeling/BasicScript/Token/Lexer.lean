import BasicScript.Diagnostic
import BasicScript.Number.Reading

/-! Scanning. `Step.recognize` says what stands at the front of a text without knowing where that
is, and `scanFrom` walks over the characters once, keeps the position, and lets each step speak for
the characters behind its first. -/

set_option autoImplicit false

namespace BasicScript

/-- What stands at the front of a text. `more` counts the characters behind the first. -/
inductive Step where
  | blank (more : Nat)
  | token (kind : TokenKind) (literal : Option Literal) (more : Nat)
  /-- A fault from the character `start` up to and without the character `stop`. -/
  | fault (fault : Fault) (start stop : Nat)
  deriving Inhabited

namespace Step

/-- A sign of its own, or the longer sign that it begins when `second` follows. -/
def sign (rest : List Char) (second : Char) (long short : TokenKind) : Step :=
  if rest.head? = some second then .token long none 1 else .token short none 0

def unescape (quote : Char) : Char → Option Char
  | '\\' => some '\\'
  | 'n' => some '\n'
  | 'r' => some '\r'
  | 't' => some '\t'
  | 'b' => some '\x08'
  | c => if c = quote then some c else none

/-- The character that a faulty escape shows; a line break and the null character show the end of
the line instead. -/
def shownEscape (c : Char) : Option Char := if c = '\n' ∨ c = '\x00' then none else some c

/-- The rest of a string, `taken` characters behind its opening quote; `text` holds the decoded
characters in reverse. -/
def quoted (quote : Char) : List Char → Nat → List Char → Step
  | [], taken, _ => .fault (.unterminatedString quote) 0 (taken + 1)
  | '\\' :: [], taken, _ => .fault (.invalidEscape none quote) (taken + 1) (taken + 2)
  | '\\' :: c :: rest, taken, text =>
    match unescape quote c with
    | some d => quoted quote rest (taken + 2) (d :: text)
    | none => .fault (.invalidEscape (shownEscape c) quote) (taken + 1) (taken + 3)
  | c :: rest, taken, text =>
    if c = quote then .token .string (some (.text (String.ofList text.reverse))) (taken + 1)
    else if c = '\n' then .fault (.unterminatedString quote) 0 (taken + 1)
    else quoted quote rest (taken + 1) (c :: text)

def integer (whole : List Char) : Step :=
  match Number.ofInt? (Number.ofDigits whole) with
  | some n => .token .integer (some (.integer n)) (whole.length - 1)
  | none => .fault (.integerTooLarge (String.ofList whole)) 0 whole.length

/-- A number that starts with the digit `c`. A point belongs to it only in front of a digit. -/
def number (c : Char) (rest : List Char) : Step :=
  let whole := c :: rest.takeWhile Char.isDigit
  match rest.dropWhile Char.isDigit with
  | '.' :: behind =>
    let fraction := behind.takeWhile Char.isDigit
    if fraction.isEmpty then integer whole
    else .token .float (some (.float (Number.ofFraction whole fraction)))
      (whole.length + fraction.length)
  | _ => integer whole

/-- Names continue with letters and underscores; digits end them. -/
def isNameChar (c : Char) : Bool := c.isAlpha || c == '_'

def word (c : Char) (rest : List Char) : Step :=
  let more := rest.takeWhile isNameChar
  match Keyword.ofWord? (String.ofList (c :: more)) with
  | some k => .token (.keyword k) none more.length
  | none => .token .identifier none more.length

def recognize (c : Char) (rest : List Char) : Step :=
  match c with
  | '\n' | ';' => .token .newline none 0
  -- a comment leaves the line break, which ends the statement in front of it
  | '#' => .blank (rest.takeWhile (· != '\n')).length
  | ' ' | '\r' => .blank 0
  | '(' => .token .leftParen none 0
  | ')' => .token .rightParen none 0
  | '[' => .token .leftBracket none 0
  | ']' => .token .rightBracket none 0
  | '{' => .token .leftBrace none 0
  | '}' => .token .rightBrace none 0
  | ',' => .token .comma none 0
  | '.' => .token .dot none 0
  | ':' => .token .colon none 0
  | '^' => .token .caret none 0
  | '%' => .token .percent none 0
  | '+' => sign rest '=' .plusEqual .plus
  | '-' => if rest.head? = some '>' then .token .arrow none 1 else sign rest '=' .minusEqual .minus
  | '*' => sign rest '=' .starEqual .star
  | '/' => sign rest '=' .slashEqual .slash
  | '=' => sign rest '=' .equalEqual .equal
  | '>' => sign rest '=' .greaterEqual .greater
  | '<' => sign rest '=' .lessEqual .less
  | '!' =>
    if rest.head? = some '=' then .token .bangEqual none 1 else .fault (.illegalCharacter '!') 0 1
  | '\'' | '"' => quoted c rest 0 []
  | _ =>
    if c.isDigit then number c rest
    else if c.isAlpha then word c rest
    else .fault (.illegalCharacter c) 0 1

end Step

namespace Token

/-- Scan from `p` on. The first `skip` characters belong to what was scanned last; `scanned` holds
the tokens in reverse. -/
def scanFrom (file : SourceFile) :
    List Char → Nat → Position → List Token → Except Diagnostic (List Token)
  | [], _, p, scanned => .ok (⟨.eof, "", none, .single file p⟩ :: scanned).reverse
  | c :: rest, skip + 1, p, scanned => scanFrom file rest skip (p.next c) scanned
  | c :: rest, 0, p, scanned =>
    match Step.recognize c rest with
    | .blank more => scanFrom file rest more (p.next c) scanned
    | .token kind literal more =>
      let lexeme := c :: rest.take more
      let token := ⟨kind, String.ofList lexeme, literal, ⟨file, p, p.after lexeme⟩⟩
      scanFrom file rest more (p.next c) (token :: scanned)
    | .fault fault start stop =>
      let ahead (n : Nat) := p.after ((c :: rest).take n)
      .error ⟨fault, ⟨file, ahead start, ahead stop⟩, [], []⟩

def expandTabs (cs : List Char) : List Char :=
  cs.flatMap fun c => if c = '\t' then [' ', ' ', ' ', ' '] else [c]

/-- The tokens of a text, closed by an end-of-file token. Positions and the text kept for
diagnostics are those behind the expansion of tabs. -/
def scan (name text : String) : Except Diagnostic (List Token) :=
  let cs := expandTabs text.toList
  scanFrom ⟨name, String.ofList cs⟩ cs 0 .origin []

end Token

end BasicScript
