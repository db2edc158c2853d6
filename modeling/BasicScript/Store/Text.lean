import BasicScript.Store
import BasicScript.Text.Quoted

/-! Texts of values: as a program prints them, as the shell echoes them, and as a dump shows them.
-/

set_option autoImplicit false

namespace BasicScript.Store

def functionName (s : Store) (h : Handle) : String := (s.functions[h]?.getD default).displayName

def builtInName (s : Store) (h : Handle) : String := (s.builtIns[h]?.getD default).name

def moduleName (s : Store) (h : Handle) : String := (s.modules[h]?.getD default).name

def enclosed (left right : String) (texts : List String) : String :=
  left ++ ", ".intercalate texts ++ right

def textWithin (s : Store) : Nat → Value → String
  | _, .number n => n.text
  | _, .string text => text
  | _, .boolean b => if b then "TRUE" else "FALSE"
  | _, .null => "NULL"
  | 0, .list _ => "[]"
  | depth + 1, .list h => enclosed "[" "]" ((s.items h).toList.map (s.textWithin depth))
  | 0, .dictionary _ => "\x7b\x7d"
  | depth + 1, .dictionary h =>
    enclosed "\x7b" "\x7d" ((s.entries h).toList.map fun (key, value) =>
      s.textWithin depth key ++ ": " ++ s.textWithin depth value)
  | _, .function h => s.functionName h ++ "()"
  | _, .builtIn h => s.builtInName h ++ "()"
  | _, .module h => "<module " ++ s.moduleName h ++ ">"

def text (s : Store) (value : Value) : String := s.textWithin s.depth value

/-- The text that the shell echoes: strings are quoted, though not inside containers. -/
def echo (s : Store) (value : Value) : String :=
  match value with
  | .string text => "'" ++ text ++ "'"
  | _ => s.text value

def dumpWithin (s : Store) : Nat → Value → String
  | _, .number n => "Number(" ++ n.text ++ ")"
  | _, .string text => "String(" ++ Text.quoted text ++ ")"
  | _, .boolean b => "Boolean(" ++ toString b ++ ")"
  | _, .null => "Null"
  | 0, .list _ => "List([])"
  | depth + 1, .list h => enclosed "List([" "])" ((s.items h).toList.map (s.dumpWithin depth))
  | 0, .dictionary _ => "\x7b\x7d"
  | depth + 1, .dictionary h =>
    enclosed "\x7b" "\x7d" ((s.entries h).toList.map fun (key, value) =>
      s.dumpWithin depth key ++ ": " ++ s.dumpWithin depth value)
  | _, .function h => "Function(" ++ s.functionName h ++ ")"
  | _, .builtIn h => "BuiltIn(" ++ s.builtInName h ++ ")"
  | _, .module h => "Module(" ++ s.moduleName h ++ ")"

/-- The text of a value in a dump: its type, and strings with escapes. -/
def dump (s : Store) (value : Value) : String := s.dumpWithin s.depth value

end BasicScript.Store
