import BasicScript.Fault

/-! Diagnostics: a fault at a place in a source text, together with the calls that were active when
it arose, and their plain rendering with the faulty line underlined. -/

set_option autoImplicit false

namespace BasicScript

structure Diagnostic where
  fault : Fault
  span : Span
  trace : List String := []
  /-- The imports that the fault surfaced through, innermost first. -/
  notes : List String := []
  deriving DecidableEq, Inhabited

namespace Diagnostic

def withNote (d : Diagnostic) (note : String) : Diagnostic := { d with notes := d.notes ++ [note] }

def code (d : Diagnostic) : String := d.span.file.line d.span.start.line

/-- How many characters to underline: to the end of the span or of its first line, at least one. -/
def width (d : Diagnostic) : Nat :=
  let last := if d.span.stop.line = d.span.start.line then d.span.stop.column else d.code.length
  max (last - d.span.start.column) 1

/-- The active calls, outermost first; nothing for a single one. -/
def stackLines (d : Diagnostic) : List String :=
  if 1 < d.trace.length then
    ["Stack:"] ++ d.trace.reverse.map ("  " ++ ·) ++ [""]
  else []

def underline (d : Diagnostic) : String :=
  String.ofList (List.replicate d.span.start.column ' ' ++ List.replicate d.width '^')

def helpLines (d : Diagnostic) : List String :=
  match d.fault.help with
  | some help => ["help: " ++ help]
  | none => []

def location (d : Diagnostic) : String :=
  "file: " ++ d.span.file.name ++ ", ln: " ++ toString d.span.start.line ++ ", col: " ++
    toString d.span.start.column

def lines (d : Diagnostic) : List String :=
  d.stackLines ++ [d.code, d.underline] ++ d.notes ++ [d.fault.display] ++ d.helpLines ++
    ["", d.location]

def render (d : Diagnostic) : String := "\n".intercalate d.lines

end Diagnostic

end BasicScript
