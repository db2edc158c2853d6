import BasicScript.Fault

/-! Arithmetic. Integers stay integers as long as the exact result fits into 64 bits; beyond that,
and as soon as a double takes part, the operation is done on doubles. -/

set_option autoImplicit false

namespace BasicScript.Number

/-- An operation on integers where that has a result, else the one on doubles. -/
def combine (onInts : Int64 → Int64 → Option Int64) (onFloats : Float → Float → Float)
    (a b : Number) : Number :=
  match a, b with
  | .int m, .int n =>
    match onInts m n with
    | some r => .int r
    | none => .float (onFloats a.toFloat b.toFloat)
  | _, _ => .float (onFloats a.toFloat b.toFloat)

def add : Number → Number → Number :=
  combine (fun m n => ofInt? (m.toInt + n.toInt)) (· + ·)

def sub : Number → Number → Number :=
  combine (fun m n => ofInt? (m.toInt - n.toInt)) (· - ·)

def mul : Number → Number → Number :=
  combine (fun m n => ofInt? (m.toInt * n.toInt)) (· * ·)

def div (a b : Number) : Except Fault Number :=
  if b.isZero then .error .divisionByZero else .ok (.float (a.toFloat / b.toFloat))

/-- The remainder with the sign of the divisor. There is none when the quotient does not fit. -/
def modulo? (m n : Int64) : Option Int64 := do
  let _ ← ofInt? (m.toInt.tdiv n.toInt)
  ofInt? (m.toInt.fmod n.toInt)

def rem (a b : Number) : Except Fault Number :=
  if b.isZero then .error .divisionByZero
  else .ok (combine modulo? (fun x y => x - y * Double.floor (x / y)) a b)

/-- The power of two integers, for exponents of up to 32 bits. From the exponent 64 on only zero
and the units have a power that fits. -/
def power? (base exponent : Int64) : Option Int64 :=
  let b := base.toInt
  let e := exponent.toInt
  if e < 0 ∨ UInt32.size ≤ e then none
  else if 64 ≤ e ∧ 1 < b.natAbs then none
  else if 64 ≤ e then ofInt? (if b = -1 ∧ e % 2 = 0 then 1 else b)
  else ofInt? (b.pow e.toNat)

def floatPower (a b : Number) : Except Fault Number :=
  let result := a.toFloat.pow b.toFloat
  if result.isNaN then .error (.notReal a b)
  else if result.isInf ∧ a.isZero then .error .divisionByZero
  else .ok (.float result)

def pow (a b : Number) : Except Fault Number :=
  match a, b with
  | .int m, .int n =>
    match power? m n with
    | some r => .ok (.int r)
    | none => floatPower a b
  | _, _ => floatPower a b

def neg : Number → Number
  | .int n =>
    match ofInt? (-n.toInt) with
    | some r => .int r
    | none => .float (-(Number.int n).toFloat)
  | .float f => .float (-f)

def abs : Number → Number
  | .int n =>
    match ofInt? n.toInt.natAbs with
    | some r => .int r
    | none => .float (Number.int n).toFloat.abs
  | .float f => .float f.abs

def sqrt (n : Number) : Except Fault Number :=
  if n.toFloat < 0.0 then .error (.negativeRoot n) else .ok (.float n.toFloat.sqrt)

def floor (n : Number) : Number := integral (Double.floor n.toFloat)

def ceil (n : Number) : Number := integral (Double.ceil n.toFloat)

def round (n : Number) : Number := integral (Double.round n.toFloat)

/-- The smaller number; the first when neither is. -/
def min (a b : Number) : Number := if b.less a then b else a

def max (a b : Number) : Number := if a.less b then b else a

end BasicScript.Number
