/-! Paths: texts whose parts are separated by slashes. Empty parts and parts that are a single point
mean nothing, except a point at the very front of a relative path. -/

set_option autoImplicit false

namespace BasicScript

structure Path where
  text : String
  deriving DecidableEq, Inhabited

namespace Path

def pieces : List Char → List (List Char)
  | [] => [[]]
  | c :: rest =>
    match c, pieces rest with
    | '/', all => [] :: all
    | _, first :: others => (c :: first) :: others
    | _, [] => [[c]]

def split (p : Path) : List String := (pieces p.text.toList).map String.ofList

def isAbsolute (p : Path) : Bool := p.text.toList.head? == some '/'

/-- Put `name` below `base`. An absolute name replaces the base. -/
def join (base : Path) (name : String) : Path :=
  if (Path.mk name).isAbsolute then ⟨name⟩
  else if base.text.isEmpty ∨ base.text.toList.getLast? = some '/' then ⟨base.text ++ name⟩
  else ⟨base.text ++ "/" ++ name⟩

def isStep (part : String) : Bool := part != "" && part != "."

def components (p : Path) : Bool × List String :=
  match p.split with
  | "." :: rest => (false, "." :: rest.filter isStep)
  | parts => (p.isAbsolute, parts.filter isStep)

def same (p q : Path) : Bool := p.components == q.components

/-- Drop parts at the end that mean nothing; the parts are in reverse. -/
def trimmed : List String → List String
  | [] => []
  | ["."] => ["."]
  | part :: rest => if isStep part then part :: rest else trimmed rest

def parent? (p : Path) : Option Path :=
  match trimmed p.split.reverse with
  | [] => none
  | _ :: above =>
    match trimmed above with
    | [] => some ⟨if p.isAbsolute then "/" else ""⟩
    | parts => some ⟨"/".intercalate parts.reverse⟩

end Path

end BasicScript
