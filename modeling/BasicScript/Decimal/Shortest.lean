import BasicScript.Double

/-! The shortest decimal that reads back as a given double.

The reals that round to a double form an interval. For one, two, … seventeen digits the two
neighbours of the double on the decimal grid of that many digits are tested against the interval;
the first grid with a hit wins, of two hits the nearer, and of two equally near ones the greater. -/

set_option autoImplicit false

namespace BasicScript

structure Decimal where
  digits : Nat
  exponent : Int
  deriving DecidableEq, Inhabited

namespace Decimal

def compareScaled (a : Nat) (i : Int) (n : Nat) (j : Int) : Ordering :=
  compare ((a * Nat.pow 10 i.toNat) <<< (-j).toNat) ((n * Nat.pow 10 (-i).toNat) <<< j.toNat)

/-- Whether `d` lies among the reals that round to `x`. A tie goes to the even mantissa, so the ends
of the interval belong to it when the mantissa is even. -/
def readsBack (d : Decimal) (x : Double) : Bool :=
  let low := if x.narrowBelow then 4 * x.mantissa - 1 else 4 * x.mantissa - 2
  let high := 4 * x.mantissa + 2
  let closed := x.mantissa % 2 == 0
  let toLow := compareScaled d.digits d.exponent low (x.exponent - 2)
  let toHigh := compareScaled d.digits d.exponent high (x.exponent - 2)
  (toLow == .gt || (closed && toLow == .eq)) && (toHigh == .lt || (closed && toHigh == .eq))

def raiseScale (x : Double) : Nat → Int → Int
  | 0, k => k
  | steps + 1, k =>
    if compareScaled 1 k x.mantissa x.exponent == .gt then k else raiseScale x steps (k + 1)

def scale (x : Double) : Int :=
  raiseScale x 4 (Int.fdiv ((x.mantissa.log2 + x.exponent) * 30103) 100000 - 1)

/-- The better neighbour of `x` with digits at `10 ^ place` and above, if one reads back. -/
def onGrid? (x : Double) (place : Int) : Option Decimal :=
  let divisor := x.divisor * Nat.pow 10 place.toNat
  let numerator := x.numerator * Nat.pow 10 (-place).toNat
  let below : Decimal := ⟨numerator / divisor, place⟩
  let above : Decimal := ⟨numerator / divisor + 1, place⟩
  match below.readsBack x, above.readsBack x with
  | true, true => some (if 2 * (numerator % divisor) < divisor then below else above)
  | true, false => some below
  | false, true => some above
  | false, false => none

def exact (x : Double) : Decimal :=
  ⟨x.numerator * Nat.pow 5 (-x.exponent).toNat, min x.exponent 0⟩

/-- The fewest digits that read back as `x`. -/
def shortest (x : Double) : Decimal :=
  if x.mantissa = 0 then ⟨0, 0⟩
  else
    let k := scale x
    ((List.range 17).findSome? fun (n : Nat) => onGrid? x (k - (n + 1))).getD (exact x)

end Decimal

end BasicScript
