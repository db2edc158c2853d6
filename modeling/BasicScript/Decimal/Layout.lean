import BasicScript.Decimal.Shortest

/-! Texts of doubles. A `Layout` says when an exponent is written and whether a whole number keeps a
zero behind the point; sign, infinities and the undefined number look the same in every layout. -/

set_option autoImplicit false

namespace BasicScript

/-- What a text of a double decides beyond its digits. -/
structure Layout where
  /-- The exponents of a leading digit, from the first up to but not including the second, that
  are written in place; all of them when absent. -/
  plain : Option (Int × Int)
  pointZero : Bool

namespace Layout

def zeros (n : Int) : List Char := List.replicate n.toNat '0'

/-- The digits without the zeros at their end, and the exponent that makes up for these. -/
def significant (d : Decimal) : List Char × Int :=
  let all := Nat.toDigits 10 d.digits
  let kept := (all.reverse.dropWhile (· == '0')).reverse
  if kept.isEmpty then (['0'], 0) else (kept, d.exponent + (all.length - kept.length : Nat))

def positional (pointZero : Bool) (digits : List Char) (exponent : Int) : List Char :=
  let point := digits.length + exponent
  if 0 ≤ exponent then digits ++ zeros exponent ++ (if pointZero then ['.', '0'] else [])
  else if point ≤ 0 then ['0', '.'] ++ zeros (-point) ++ digits
  else digits.take point.toNat ++ ['.'] ++ digits.drop point.toNat

def scientific (digits : List Char) (exponent : Int) : List Char :=
  digits.take 1 ++ (if digits.length ≤ 1 then [] else '.' :: digits.drop 1) ++
    'e' :: (toString exponent).toList

def magnitude (layout : Layout) (d : Decimal) : List Char :=
  let (digits, exponent) := significant d
  let leading := exponent + digits.length - 1
  match layout.plain with
  | none => positional layout.pointZero digits exponent
  | some (first, past) =>
    if first ≤ leading ∧ leading < past then positional layout.pointZero digits exponent
    else scientific digits leading

def write (layout : Layout) (digits : Double → Decimal) (f : Float) : String :=
  if f.isNaN then "NaN"
  else
    let sign := if Double.isNegative f then ['-'] else []
    String.ofList (sign ++
      if f.isFinite then layout.magnitude (digits (.ofFloat f)) else ['i', 'n', 'f'])

/-- A literal as a token shows it: never an exponent, and no point that it does not need. -/
def literal : Layout := ⟨none, false⟩

def printed : Layout := ⟨none, true⟩

/-- A number in a dump of the syntax tree: very large and very small ones get an exponent. -/
def dumped : Layout := ⟨some (-4, 16), true⟩

end Layout

end BasicScript
