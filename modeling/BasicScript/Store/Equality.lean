import BasicScript.Store

/-! Equality of values. Numbers, strings and booleans are equal by what they are, a boolean equals
the number it counts as, containers are equal by their contents, and all else by identity. -/

set_option autoImplicit false

namespace BasicScript.Store

/-- Whether two values are equal, when `compare` compares what stands in containers. Items and
entries are gone through from the first on, up to the first that is not equal; if `compare` has no
answer for one of them, there is none. -/
def equalBy? (s : Store) (compare : Value → Value → Option Bool) : Value → Value → Option Bool
  | .number a, .number b => some (a.equal b)
  | .number n, .boolean b => some (n.equal (.int (if b then 1 else 0)))
  | .boolean b, .number n => some (n.equal (.int (if b then 1 else 0)))
  | .string a, .string b => some (a == b)
  | .boolean a, .boolean b => some (a == b)
  | .null, .null => some true
  | .list a, .list b =>
    if a = b then some true
    else if (s.items a).size ≠ (s.items b).size then some false
    else ((s.items a).toList.zip (s.items b).toList).allM fun pair => compare pair.1 pair.2
  | .dictionary a, .dictionary b =>
    if a = b then some true
    else if (s.entries a).size ≠ (s.entries b).size then some false
    else (s.entries a).toList.allM fun entry => do
      match ← (s.entries b).toList.findM? fun other => compare other.1 entry.1 with
      | some other => compare entry.2 other.2
      | none => return false
  | .function a, .function b => some (a == b)
  | .builtIn a, .builtIn b => some (a == b)
  | .module a, .module b => some (a == b)
  | _, _ => some false

def equalWithin? (s : Store) : Nat → Value → Value → Option Bool
  | 0 => s.equalBy? fun _ _ => none
  | depth + 1 => s.equalBy? (s.equalWithin? depth)

/-- Whether two values compare as equal. On its way down a comparison that ends meets no pair of
containers twice, so it goes no deeper than there are pairs. -/
def equal (s : Store) (a b : Value) : Bool := s.equalWithin? (s.depth * s.depth) a b == some true

end BasicScript.Store
