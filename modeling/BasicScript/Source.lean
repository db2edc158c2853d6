/-! Source texts and places in them.

A position counts characters from the start of its text and also carries the line, from one, and the
column, from zero, so that a diagnostic never has to search the text again. -/

set_option autoImplicit false

namespace BasicScript

structure SourceFile where
  name : String
  text : String
  deriving DecidableEq, Inhabited

/-- What is left of a text behind its first `n` newlines: nothing, if it has fewer. -/
def dropLines : Nat → List Char → List Char
  | 0, cs => cs
  | _ + 1, [] => []
  | n + 1, c :: cs => dropLines n (((c :: cs).dropWhile (· != '\n')).drop 1)

/-- Line `n` of the text, counted from one and without its newline; empty past the last line. -/
def SourceFile.line (file : SourceFile) (n : Nat) : String :=
  String.ofList ((dropLines (n - 1) file.text.toList).takeWhile (· != '\n'))

structure Position where
  index : Nat
  line : Nat
  column : Nat
  deriving DecidableEq, Inhabited

namespace Position

def origin : Position := ⟨0, 1, 0⟩

def next (p : Position) (c : Char) : Position :=
  if c = '\n' then ⟨p.index + 1, p.line + 1, 0⟩ else ⟨p.index + 1, p.line, p.column + 1⟩

def after (p : Position) (cs : List Char) : Position := cs.foldl next p

end Position

/-- A stretch of a source text; `stop` is exclusive. -/
structure Span where
  file : SourceFile
  start : Position
  stop : Position
  deriving DecidableEq, Inhabited

namespace Span

def single (file : SourceFile) (p : Position) : Span := ⟨file, p, p⟩

def synthetic (name : String) : Span := single ⟨name, ""⟩ .origin

def upTo (first last : Span) : Span := { first with stop := last.stop }

end Span

end BasicScript
