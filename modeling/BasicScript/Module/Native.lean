import BasicScript.BuiltIn.Call

/-! Native modules: tables of plain data and functions that a host offers for import. Each import
converts the table anew, so what one importer does to a list is invisible to the others. -/

set_option autoImplicit false

namespace BasicScript

inductive NativeValue where
  | number (n : Number)
  | text (s : String)
  | boolean (b : Bool)
  | null
  | list (items : List NativeValue)
  | map (entries : List (NativeValue × NativeValue))
  | function (action : Action)
  deriving Inhabited

structure NativeRow where
  name : String
  value : NativeValue
  constant : Bool
  arity : Option Arity
  deriving Inhabited

structure NativeModule where
  name : String
  rows : List NativeRow
  deriving Inhabited

structure Export where
  name : String
  value : Value
  constant : Bool
  deriving DecidableEq, Inhabited

namespace NativeValue

mutual

/-- Data without functions as a value; `row` is the name of the row for a fault. -/
def data (row : String) : NativeValue → Act Value
  | .number n => return .number n
  | .text s => return .string s
  | .boolean b => return .boolean b
  | .null => return .null
  | .list items => do
    let values ← dataItems row items #[]
    modifyGet (·.addList values)
  | .map entries => do
    let values ← dataEntries row entries #[]
    modifyGet (·.addDictionary values)
  | .function _ => throw (.nestedFunction row)

def dataItems (row : String) : List NativeValue → Array Value → Act (Array Value)
  | [], values => return values
  | item :: rest, values => do
    let value ← item.data row
    dataItems row rest (values.push value)

def dataEntries (row : String) : List (NativeValue × NativeValue) → Entries → Act Entries
  | [], entries => return entries
  | (key, value) :: rest, entries => do
    let key ← key.data row
    let value ← value.data row
    let entries ← Act.read fun s => s.insert entries key value
    dataEntries row rest entries

end

end NativeValue

namespace NativeModule

/-- The value of a row. Only here, and not inside a list or map, may a function stand. -/
def convert (row : NativeRow) : Act Value :=
  match row.value with
  | .function action => modifyGet (·.addBuiltIn ⟨row.name, row.arity, action⟩)
  | value => value.data row.name

def exportsFrom : List NativeRow → Act (List Export)
  | [] => return []
  | row :: rest => do
    let value ← convert row
    return ⟨row.name, value, row.constant⟩ :: (← exportsFrom rest)

def exports (m : NativeModule) : Act (List Export) := exportsFrom m.rows

def constant (name : String) (value : NativeValue) : NativeRow := ⟨name, value, true, none⟩

def function (name : String) (arity : Arity) (action : Action) : NativeRow :=
  ⟨name, .function action, true, some arity⟩

def mathConstants : List NativeRow :=
  [constant "PI" (.number (.float 3.141592653589793)),
   constant "E" (.number (.float 2.718281828459045)),
   constant "TAU" (.number (.float 6.283185307179586))]

def math : NativeModule :=
  ⟨"math", mathConstants ++
    [function "sqrt" (.exactly 1) (.math .sqrt),
     function "abs" (.exactly 1) (.math .abs),
     function "floor" (.exactly 1) (.math .floor),
     function "ceil" (.exactly 1) (.math .ceil),
     function "round" (.exactly 1) (.math .round),
     function "min" (.atLeast 1) (.math .min),
     function "max" (.atLeast 1) (.math .max)]⟩

def terminal : NativeModule :=
  ⟨"terminal",
    [function "print" (.atLeast 1) (.terminal .print),
     function "printLine" (.atLeast 1) (.terminal .printLine),
     function "input" ⟨0, 1⟩ (.terminal .input),
     function "clear" (.exactly 0) (.terminal .clear)]⟩

end NativeModule

/-- Native modules, the last registered first. -/
abbrev Registry := List NativeModule

namespace Registry

def standard : Registry := [NativeModule.terminal, NativeModule.math]

def register (r : Registry) (m : NativeModule) : Registry := m :: r

def find? (r : Registry) (name : String) : Option NativeModule :=
  List.find? (fun m => m.name == name) r

end Registry

end BasicScript
