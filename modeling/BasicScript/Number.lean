import BasicScript.Decimal.Layout

/-! Numbers: 64-bit integers and doubles, their text, equality and order.

Two integers are compared exactly. As soon as a double takes part, both sides are compared as
doubles, so a large integer equals every double that it rounds to. -/

set_option autoImplicit false

namespace BasicScript

inductive Number where
  | int (n : Int64)
  | float (f : Float)
  deriving DecidableEq, Inhabited

namespace Number

def toFloat : Number → Float
  | .int n => Float.ofInt n.toInt
  | .float f => f

/-- The whole value of an integer; a double has none, even one without a fraction. -/
def toInt64? : Number → Option Int64
  | .int n => some n
  | .float _ => none

def isZero (n : Number) : Bool := n.toFloat == 0.0

def equal : Number → Number → Bool
  | .int a, .int b => a == b
  | a, b => a.toFloat == b.toFloat

def less : Number → Number → Bool
  | .int a, .int b => a < b
  | a, b => a.toFloat < b.toFloat

/-- Whether the first number is smaller or equal; false if either is undefined. -/
def atMost : Number → Number → Bool
  | .int a, .int b => a ≤ b
  | a, b => a.toFloat ≤ b.toFloat

/-- The text that a program prints: all digits of a whole double, else the shortest that read
back, and always a point in a double. -/
def text : Number → String
  | .int n => toString n.toInt
  | .float f =>
    Layout.printed.write (if Double.isWhole f then Decimal.exact else Decimal.shortest) f

def ofInt? (n : Int) : Option Int64 :=
  if Int64.minValue.toInt ≤ n ∧ n ≤ Int64.maxValue.toInt then some (Int64.ofInt n) else none

theorem ofInt?_eq_some {n : Int64} {i : Int} : ofInt? i = some n ↔ n.toInt = i := by
  have least := n.le_toInt
  have greatest := n.toInt_lt
  have bounds : Int64.minValue.toInt = -2 ^ 63 ∧ Int64.maxValue.toInt = 2 ^ 63 - 1 := by decide
  rw [ofInt?, Option.ite_none_right_eq_some, bounds.1, bounds.2]
  constructor
  · rintro ⟨fits, same⟩
    rw [← Option.some.inj same, Int64.toInt_ofInt_of_le fits.1 (by omega)]
  · rintro rfl
    exact ⟨⟨least, by omega⟩, congrArg some (Int64.ofInt_toInt n)⟩

theorem ofInt?_eq_none {i : Int} :
    ofInt? i = none ↔ ¬(-0x8000000000000000 ≤ i ∧ i < 0x8000000000000000) := by
  have bounds : Int64.minValue.toInt = -2 ^ 63 ∧ Int64.maxValue.toInt = 2 ^ 63 - 1 := by decide
  rw [ofInt?, ite_eq_right_iff, bounds.1, bounds.2]
  simp only [reduceCtorEq, imp_false]
  omega

/-- The part of a double in front of its point, as an integer if the double lies within the 64-bit
range. The greatest integer is no double; the double nearest to it still becomes that integer. -/
def integral (f : Float) : Number :=
  let least := Int64.minValue.toInt
  let greatest := Int64.maxValue.toInt
  if f.isFinite ∧ Float.ofInt least ≤ f ∧ f ≤ Float.ofInt greatest then
    .int (Int64.ofInt (min (Double.toInt f) greatest))
  else .float f

end Number

end BasicScript
