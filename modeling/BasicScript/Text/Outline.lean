/-! Outlines: nested data written over several lines, each level four blanks further in and each
part closed by a comma. -/

set_option autoImplicit false

namespace BasicScript

inductive Outline where
  | atom (text : String)
  | record (name : String) (fields : List (String × Outline))
  | tuple (name : String) (parts : List Outline)
  | list (items : List Outline)
  deriving Inhabited

namespace Outline

def indented (label : String) : List String → List String
  | [] => []
  | [line] => ["    " ++ label ++ line ++ ","]
  | line :: rest => ("    " ++ label ++ line) :: closed rest
where
  closed : List String → List String
    | [] => []
    | [line] => ["    " ++ line ++ ","]
    | line :: rest => ("    " ++ line) :: closed rest

mutual

def lines : Outline → List String
  | .atom text => [text]
  | .record name fields => [name ++ " \x7b"] ++ fieldLines fields ++ ["\x7d"]
  | .tuple name parts => [name ++ "("] ++ partLines parts ++ [")"]
  | .list [] => ["[]"]
  | .list items => ["["] ++ partLines items ++ ["]"]

def fieldLines : List (String × Outline) → List String
  | [] => []
  | (name, value) :: rest => indented (name ++ ": ") value.lines ++ fieldLines rest

def partLines : List Outline → List String
  | [] => []
  | part :: rest => indented "" part.lines ++ partLines rest

end

def render (outline : Outline) : String := "\n".intercalate outline.lines

def optional : Option Outline → Outline
  | none => .atom "None"
  | some outline => .tuple "Some" [outline]

end Outline

end BasicScript
