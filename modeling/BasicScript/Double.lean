/-! Doubles as exact numbers: a finite double is its sign and `mantissa * 2 ^ exponent`.

Rounding to a whole number is done on that exact form, so it can be evaluated and reasoned about
without the machine's rounding instructions. -/

set_option autoImplicit false

namespace BasicScript

/-- The magnitude `mantissa * 2 ^ exponent` of a finite double. -/
structure Double where
  mantissa : Nat
  exponent : Int
  /-- The next smaller double is only half as far away as the next greater one. -/
  narrowBelow : Bool
  deriving DecidableEq, Inhabited

namespace Double

def ofBits (bits : UInt64) : Double :=
  let field := ((bits >>> 52) &&& 0x7FF).toNat
  let fraction := (bits &&& 0xFFFFFFFFFFFFF).toNat
  if field = 0 then ⟨fraction, -1074, false⟩
  else ⟨0x10000000000000 + fraction, (field : Int) - 1075, fraction = 0 ∧ 1 < field⟩

def ofFloat (f : Float) : Double := ofBits f.toBits

/-- The sign bit of `f`; also set for the negative zero. -/
def isNegative (f : Float) : Bool := f.toBits >>> 63 = 1

/-- The divisor that turns the mantissa into the number, one for a whole number. -/
def divisor (x : Double) : Nat := 1 <<< (-x.exponent).toNat

def numerator (x : Double) : Nat := x.mantissa <<< x.exponent.toNat

def whole (x : Double) : Nat := x.numerator / x.divisor

def rest (x : Double) : Nat := x.numerator % x.divisor

/-- Replace a finite magnitude by a whole number and keep the sign, also that of a zero. -/
def mapWhole (pick : Bool → Double → Nat) (f : Float) : Float :=
  if f.isFinite then
    let magnitude := Float.ofNat (pick (isNegative f) (ofFloat f))
    if isNegative f then -magnitude else magnitude
  else f

def floor : Float → Float :=
  mapWhole fun negative x => if negative ∧ x.rest ≠ 0 then x.whole + 1 else x.whole

def ceil : Float → Float :=
  mapWhole fun negative x => if ¬ negative ∧ x.rest ≠ 0 then x.whole + 1 else x.whole

/-- The nearest whole number; a half goes away from zero. -/
def round : Float → Float :=
  mapWhole fun _ x => if x.divisor ≤ 2 * x.rest then x.whole + 1 else x.whole

def isWhole (f : Float) : Bool := f.isFinite && (ofFloat f).rest == 0

def toInt (f : Float) : Int :=
  if isNegative f then -((ofFloat f).whole : Int) else (ofFloat f).whole

end Double

end BasicScript
