import BasicScript.Node.Cursor

/-! Token streams. A stream holds all tokens of a text, an end of file last, and the index of the
next one. Further ends of file may stand in between; the first of them ends the file. -/

set_option autoImplicit false

namespace BasicScript

structure Stream where
  tokens : Array Token
  current : Nat
  deriving DecidableEq, Inhabited

namespace Stream

/-- The end of file behind `last`, the last token of a list that has none. -/
def closing : Option Token → Token
  | some last => ⟨.eof, "", none, .single last.span.file last.span.stop⟩
  | none => ⟨.eof, "", none, .synthetic "<empty>"⟩

/-- The start of a list of tokens, which gets an end of file if it does not end in one. -/
def ofTokens (tokens : List Token) : Stream :=
  let last := tokens.getLast?
  if last.map Token.kind = some .eof then ⟨tokens.toArray, 0⟩
  else ⟨(tokens ++ [closing last]).toArray, 0⟩

/-- The token at the index, or the last one if the index is beyond it. -/
def peek? (s : Stream) : Option Token := s.tokens[min s.current (s.tokens.size - 1)]?

def next? (s : Stream) : Option Token := s.peek?.filter fun token => token.kind != .eof

def advance (s : Stream) : Stream :=
  match s.next? with
  | some _ => { s with current := s.current + 1 }
  | none => s

def stopFrom (tokens : Array Token) : Nat → Nat → Nat
  | 0, i => i
  | n + 1, i => if tokens[i]?.map Token.kind = some .eof then i else stopFrom tokens n (i + 1)

/-- Where an unexpected token is reported. An end of file that has tokens in front of it is reported
just behind the last of them. -/
def faultSpan (s : Stream) : Span :=
  match s.next? with
  | some token => token.span
  | none =>
    let blamed := if 0 < s.current then s.tokens[s.current - 1]?.map fun last =>
        .single last.span.file last.span.stop
      else s.peek?.map Token.span
    blamed.getD (.synthetic "<empty>")

instance : TokenSource Stream where
  taken := current
  left s := stopFrom s.tokens (s.tokens.size - s.current) s.current - s.current
  next? := next?
  second? s := s.tokens[s.current + 1]?
  advance := advance
  faultSpan := faultSpan

end Stream

end BasicScript
