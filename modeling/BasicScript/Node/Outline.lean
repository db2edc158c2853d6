import BasicScript.Node
import BasicScript.Text.Outline
import BasicScript.Text.Quoted

/-! Syntax trees as outlines, with every span and, in it, the whole source text. -/

set_option autoImplicit false

namespace BasicScript

namespace Outline

def nat (n : Nat) : Outline := .atom (toString n)

def text (s : String) : Outline := .atom (Text.quoted s)

def boolean (b : Bool) : Outline := .atom (toString b)

end Outline

def Position.outline (p : Position) : Outline :=
  .record "Position" [("index", .nat p.index), ("line", .nat p.line), ("column", .nat p.column)]

def SourceFile.outline (file : SourceFile) : Outline :=
  .record "SourceFile" [("name", .text file.name), ("text", .text file.text)]

def Span.outline (span : Span) : Outline :=
  .record "Span"
    [("file", span.file.outline), ("start", span.start.outline), ("end", span.stop.outline)]

def Number.outline : Number → Outline
  | .int n => .tuple "Int" [.atom (toString n.toInt)]
  | .float f => .tuple "Float" [.atom (Layout.dumped.write Decimal.shortest f)]

def ImportAlias.outline : ImportAlias → Outline
  | .wildcard => .atom "Wildcard"
  | .name n => .tuple "Name" [.text n]

namespace Node

def described (node : Node) (parts : List (String × Outline)) : Outline :=
  .record node.name (parts ++ [("span", node.span.outline)])

mutual

def outline : Node → Outline
  | node@(.number value _) => described node [("value", value.outline)]
  | node@(.string value _) => described node [("value", .text value)]
  | node@(.binary left operator right _) => described node
    [("left", left.outline), ("operator", .atom operator.name), ("right", right.outline)]
  | node@(.unary operator operand _) => described node
    [("operator", .atom operator.name), ("operand", operand.outline)]
  | node@(.access name _) => described node [("name", .text name)]
  | node@(.declare name constant value _) => described node
    [("name", .text name), ("is_constant", .boolean constant), ("value", value.outline)]
  | node@(.assign name compound value _) => described node
    [("name", .text name),
     ("compound", .optional (compound.map fun operator => .atom operator.name)),
     ("value", value.outline)]
  | node@(.list items _) => described node [("items", .list (outlines items))]
  | node@(.dictionary entries _) => described node [("entries", .list (entryOutlines entries))]
  | node@(.getIndex base index _) => described node
    [("base", base.outline), ("index", index.outline)]
  | node@(.setIndex base index value _) => described node
    [("base", base.outline), ("index", index.outline), ("value", value.outline)]
  | node@(.member base name _) => described node [("base", base.outline), ("name", .text name)]
  | node@(.function name params body _) => described node
    [("name", .optional (name.map .text)), ("params", .list (params.map .text)),
     ("body", .list (outlines body))]
  | node@(.call callee args _) => described node
    [("callee", callee.outline), ("args", .list (outlines args))]
  | node@(.ifElse branches otherwise _) => described node
    [("branches", .list (branchOutlines branches)), ("else_body", blockOutline otherwise)]
  | node@(.whileLoop condition body _) => described node
    [("condition", condition.outline), ("body", .list (outlines body))]
  | node@(.forLoop item itemSpan iterable body _) => described node
    [("item_name", .text item), ("item_span", itemSpan.outline), ("iterable", iterable.outline),
     ("body", .list (outlines body))]
  | node@(.exitFunction none _) => described node [("value", .optional none)]
  | node@(.exitFunction (some value) _) => described node
    [("value", .optional (some value.outline))]
  | node@(.exitLoop _) => described node []
  | node@(.nextTurn _) => described node []
  | node@(.importModule name binding _) => described node
    [("module", name.outline), ("alias", .optional (binding.map ImportAlias.outline))]
  | node@(.range start stop step _) => described node
    [("start", start.outline), ("end", stop.outline), ("step", step.outline)]

def outlines : List Node → List Outline
  | [] => []
  | node :: rest => node.outline :: outlines rest

def entryOutlines : List (Node × Node) → List Outline
  | [] => []
  | (key, value) :: rest => .tuple "" [key.outline, value.outline] :: entryOutlines rest

def branchOutlines : List (Node × List Node) → List Outline
  | [] => []
  | (condition, body) :: rest =>
    .tuple "" [condition.outline, .list (outlines body)] :: branchOutlines rest

def blockOutline : Option (List Node) → Outline
  | none => .optional none
  | some body => .optional (some (.list (outlines body)))

end

end Node

end BasicScript
