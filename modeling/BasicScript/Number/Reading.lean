import BasicScript.Number

/-! Numbers read from digits: a run of digits, or two runs with a point between them. -/

set_option autoImplicit false

namespace BasicScript.Number

def ofDigits (digits : List Char) : Nat :=
  digits.foldl (fun n c => 10 * n + (c.toNat - '0'.toNat)) 0

def ofFraction (whole fraction : List Char) : Float :=
  Float.ofScientific (ofDigits (whole ++ fraction)) true fraction.length

/-- A conversion to a number: digits, and possibly a point that does not come first. A whole number
outside the 64-bit range becomes a double. -/
def ofText? (text : String) : Option Number :=
  let cs := text.toList
  let whole := cs.takeWhile Char.isDigit
  if whole.isEmpty then none
  else
    match cs.drop whole.length with
    | [] =>
      match ofInt? (ofDigits whole) with
      | some n => some (.int n)
      | none => some (.float (ofFraction whole []))
    | '.' :: fraction =>
      if fraction.all Char.isDigit then some (.float (ofFraction whole fraction)) else none
    | _ => none

end BasicScript.Number
