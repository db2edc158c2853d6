import BasicScript.Number.Reading
import BasicScript.Store.Dictionary
import BasicScript.Store.Text

/-! Operators and indexing on values. What an operation makes anew, such as the list of a
concatenation, is added to the store. -/

set_option autoImplicit false

namespace BasicScript

def repeated (text : String) (count : Nat) : String :=
  if count = 0 then ""
  else
    let half := repeated text (count / 2)
    if count % 2 = 0 then half ++ half else half ++ half ++ text

namespace Value

def toNumber : Value → Except Fault Number
  | .number n => .ok n
  | .boolean b => .ok (.int (if b then 1 else 0))
  | .string text =>
    match Number.ofText? text with
    | some n => .ok n
    | none => .error (.notNumeric text)
  | v => .error (.notConvertible v.type)

/-- A text repeated; negative counts are zero, and very long results are refused. -/
def repeatText (text : String) (count : Int64) : Except Fault Value :=
  let times := count.toInt.toNat
  if text.utf8ByteSize * times ≤ repeatLimit then
    .ok (.string (if text.isEmpty then "" else repeated text times))
  else .error (.repeatTooLong text.length times)

def arithmetic (operator : BinaryOperator) (onNumbers : Number → Number → Except Fault Number)
    (a b : Value) : Except Fault Value :=
  match a.numeric?, b.numeric? with
  | some m, some n => .number <$> onNumbers m n
  | _, _ => .error (.binaryUnsupported operator a.type b.type)

def multiply (a b : Value) : Except Fault Value :=
  match a, b with
  | .string text, .number n | .number n, .string text =>
    match n.toInt64? with
    | some count => repeatText text count
    | none => .error (.fractionalRepeat n)
  | _, _ => arithmetic .multiply (fun m n => .ok (m.mul n)) a b

def compare (operator : BinaryOperator) (test : Number → Number → Bool) (a b : Value) :
    Except Fault Value :=
  match a, b with
  -- unlike arithmetic, an order takes no booleans
  | .number m, .number n => .ok (.boolean (test m n))
  | _, _ => .error (.binaryUnsupported operator a.type b.type)

def unary (operator : UnaryOperator) (onNumber : Number → Number) (v : Value) :
    Except Fault Value :=
  match v.numeric? with
  | some n => .ok (.number (onNumber n))
  | none => .error (.unaryUnsupported operator v.type)

def position (index : Value) (container : ValueType) (length : Nat) : Except Fault Nat :=
  match index with
  | .number (.int n) =>
    -- nothing counts from the end
    if 0 ≤ n.toInt ∧ n.toInt < length then .ok n.toInt.toNat
    else .error (.indexOutOfRange container n length)
  | _ => .error (.indexNotInteger container index.type)

end Value

namespace Store

def truth (s : Store) : Value → Except Fault Bool
  | .number n => .ok (!n.isZero)
  | .string text => .ok (!text.isEmpty)
  | .boolean b => .ok b
  | .null => .ok false
  | .list h => .ok (!(s.items h).isEmpty)
  | .dictionary h => .ok (!(s.entries h).isEmpty)
  | v => .error (.noTruthValue v.type)

def length? (s : Store) : Value → Option Nat
  | .string text => some text.length
  | .list h => some (s.items h).size
  | .dictionary h => some (s.entries h).size
  | _ => none

def add (a b : Value) : Act Value := do
  match a, b with
  | .string x, .string y => return .string (x ++ y)
  | .list x, .list y =>
    let items ← Act.read fun s => s.items x ++ s.items y
    modifyGet (·.addList items)
  | _, _ => Act.lift (Value.arithmetic .add (fun m n => .ok (m.add n)) a b)

def binary (operator : BinaryOperator) (a b : Value) : Act Value :=
  match operator with
  | .add => add a b
  | .subtract => Act.lift (Value.arithmetic .subtract (fun m n => .ok (m.sub n)) a b)
  | .multiply => Act.lift (Value.multiply a b)
  | .divide => Act.lift (Value.arithmetic .divide Number.div a b)
  | .power => Act.lift (Value.arithmetic .power Number.pow a b)
  | .modulo => Act.lift (Value.arithmetic .modulo Number.rem a b)
  | .equal => Act.read fun s => .boolean (s.equal a b)
  | .notEqual => Act.read fun s => .boolean (!s.equal a b)
  | .greater => Act.lift (Value.compare .greater (fun m n => n.less m) a b)
  | .less => Act.lift (Value.compare .less Number.less a b)
  | .greaterEqual => Act.lift (Value.compare .greaterEqual (fun m n => n.atMost m) a b)
  | .lessEqual => Act.lift (Value.compare .lessEqual Number.atMost a b)

def unary (s : Store) (operator : UnaryOperator) (v : Value) : Except Fault Value :=
  match operator with
  | .plus => v.unary .plus id
  | .negate => v.unary .negate Number.neg
  | .not => (fun b => .boolean (!b)) <$> s.truth v

def getItem (s : Store) (base index : Value) : Except Fault Value :=
  match base with
  | .string text => do
    let i ← index.position .string text.length
    return .string (String.ofList (text.toList[i]?.toList))
  | .list h => do
    let i ← index.position .list (s.items h).size
    return (s.items h)[i]?.getD .null
  | .dictionary h =>
    match s.valueAt? (s.entries h) index with
    | some value => .ok value
    | none => .error (.invalidKey (s.echo index))
  | _ => .error (.notIndexable base.type)

def setItem (base index value : Value) : Act Unit := do
  match base with
  | .list h =>
    let length ← Act.read fun s => (s.items h).size
    let i ← Act.lift (index.position .list length)
    modify (·.setItems h (·.setIfInBounds i value))
  | .dictionary h =>
    let position ← Act.read fun s => s.position? (s.entries h) index
    modify (·.setEntries h fun entries => Entries.put entries position index value)
  | .string _ => throw .immutableString
  | _ => throw (.notAssignable base.type)

end Store

end BasicScript
