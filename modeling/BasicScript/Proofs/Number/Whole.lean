import BasicScript.Number.Arithmetic
import BasicScript.Proofs.Number.Value

/-! Whole numbers. Rounding a finite double to a whole one is exact, and so is the integer made of
that, up to but not including the end of the 64-bit range. What happens to an integer is what
happens to it on its way to a double. -/

set_option autoImplicit false

namespace BasicScript

namespace Double

open Float.Model Float.Model.UnpackedFloat

/-! ### In front of the point and behind it -/

theorem divisor_pos (x : Double) : 0 < x.divisor := by
  rw [divisor, Nat.one_shiftLeft]
  exact Nat.two_pow_pos _

theorem magnitude_eq_div (x : Double) : x.magnitude = x.numerator / x.divisor := by
  rw [magnitude, numerator, divisor, Nat.one_shiftLeft, Nat.shiftLeft_eq]
  push_cast
  rw [eq_div_iff (by positivity), mul_assoc, ← zpow_natCast, ← zpow_natCast, ← zpow_add₀ two_ne_zero]
  congr 2
  omega

theorem magnitude_eq_add (x : Double) : x.magnitude = x.whole + (x.rest : ℚ) / x.divisor := by
  have pos : (x.divisor : ℚ) ≠ 0 := mod_cast x.divisor_pos.ne'
  rw [magnitude_eq_div, div_eq_iff pos, add_mul, div_mul_cancel₀ _ pos]
  exact_mod_cast (Nat.div_add_mod' x.numerator x.divisor).symm

theorem rest_div_lt (x : Double) : (x.rest : ℚ) / x.divisor < 1 := by
  rw [div_lt_one (mod_cast x.divisor_pos)]
  exact_mod_cast Nat.mod_lt _ x.divisor_pos

theorem floor_magnitude (x : Double) : ⌊x.magnitude⌋ = x.whole := by
  rw [magnitude_eq_div, whole]
  exact Rat.floor_natCast_div_natCast _ _

theorem whole_of_nonneg {x : Double} (large : 0 ≤ x.exponent) :
    x.rest = 0 ∧ x.whole = x.mantissa * 2 ^ x.exponent.toNat := by
  have one : x.divisor = 1 := by rw [divisor, show (-x.exponent).toNat = 0 by omega]; rfl
  rw [rest, whole, one, Nat.mod_one, Nat.div_one, numerator, Nat.shiftLeft_eq]
  exact ⟨rfl, rfl⟩

theorem whole_le_mantissa {x : Double} (small : x.exponent < 0) : x.whole ≤ x.mantissa :=
  calc x.whole ≤ x.numerator := Nat.div_le_self _ _
    _ = x.mantissa := by rw [numerator, show x.exponent.toNat = 0 by omega]; rfl

theorem nearestNat_whole {x : Double} (short : x.mantissa < 2 ^ 53) : nearestNat x.whole = x.whole := by
  rcases le_or_gt 0 x.exponent with large | small
  · rw [(whole_of_nonneg large).2]
    exact nearestNat_of_short short _
  · exact nearestNat_of_le ((whole_le_mantissa small).trans short.le)

/-- Next to a part behind the point there is a place left for a greater part in front of it. -/
theorem nearestNat_whole_succ {x : Double} (short : x.mantissa < 2 ^ 53) (broken : x.rest ≠ 0) :
    nearestNat (x.whole + 1) = x.whole + 1 ∧ x.whole + 1 ≤ 2 ^ 53 := by
  have small : x.exponent < 0 := by
    by_contra large
    exact broken (whole_of_nonneg (by omega)).1
  have atMost : x.whole + 1 ≤ 2 ^ 53 := (whole_le_mantissa small).trans_lt short
  exact ⟨nearestNat_of_le atMost, atMost⟩

/-! ### Rounding -/

theorem exponent_le {f : Float} (finite : f.isFinite) : (ofFloat f).exponent ≤ 971 := by
  have short : (@unpackExponent .binary64 f.toBits.toBitVec).toNat < 2048 := BitVec.isLt _
  have notLast : (@unpackExponent .binary64 f.toBits.toBitVec).toNat ≠ 2047 := by
    intro last
    have last : @unpackExponent .binary64 f.toBits.toBitVec = -1#11 :=
      BitVec.eq_of_toNat_eq last
    change UnpackedFloat.isFinite (UnpackedFloat.unpack .binary64 f.toBits.toBitVec) at finite
    rw [UnpackedFloat.unpack] at finite
    simp only [last, if_pos] at finite
    split at finite <;> cases finite
  rw [toNat_unpackExponent] at short notLast
  unfold ofFloat ofBits
  dsimp only
  split <;> dsimp only <;> omega

theorem whole_lt {f : Float} (finite : f.isFinite) : (ofFloat f).whole < 2 ^ 1024 := by
  have below := magnitude_lt_two_pow (isCanonical_ofBits f.toBits).short
    (Int.lt_add_one_of_le (exponent_le finite))
  have front : ((ofFloat f).whole : ℚ) ≤ (ofFloat f).magnitude := by
    rw [magnitude_eq_add]
    exact le_add_of_nonneg_right (by positivity)
  have range : (2 : ℚ) ^ 52 * 2 ^ (971 + 1 : Int) = 2 ^ 1024 := by
    rw [← zpow_natCast, ← zpow_add₀ two_ne_zero, ← zpow_natCast]
    rfl
  exact_mod_cast range ▸ front.trans_lt below

/-- A whole number with the sign of another one. -/
theorem value_mapWhole {pick : Bool → Double → Nat} {f : Float} (finite : f.isFinite)
    (exact : nearestNat (pick (isNegative f) (ofFloat f)) = pick (isNegative f) (ofFloat f))
    (fits : pick (isNegative f) (ofFloat f) < 2 ^ 1024) :
    (mapWhole pick f).isFinite ∧ value (mapWhole pick f) = (if isNegative f then
      -(pick (isNegative f) (ofFloat f) : Int) else pick (isNegative f) (ofFloat f) : Int) := by
  rw [mapWhole, if_pos finite]
  generalize pick (isNegative f) (ofFloat f) = k at exact fits ⊢
  have rounded (n : Int) (same : n.natAbs = k) :
      (Float.ofInt n).isFinite ∧ value (Float.ofInt n) = n := by
    have := value_ofInt (n := n) (by rwa [same, exact])
    rwa [nearest, same, exact, ← same, Int.sign_mul_natAbs] at this
  split
  -- no integer turns into the negative zero
  · cases k with
    | zero => exact ⟨by decide +kernel, by rw [value, magnitude_eq_zero (by decide +kernel)]; simp⟩
    | succ k =>
      have := rounded (.negSucc k) rfl
      rwa [Int.cast_negSucc] at this
  · exact rounded k rfl

/-- Next to a part behind the point, the whole number that comes next is a double, too. -/
theorem value_mapWhole_next (more : Bool → Double → Prop) [∀ b x, Decidable (more b x)] {f : Float}
    (finite : f.isFinite) (broken : more (isNegative f) (ofFloat f) → (ofFloat f).rest ≠ 0) :
    let next := mapWhole (fun b x => if more b x then x.whole + 1 else x.whole) f
    let k := if more (isNegative f) (ofFloat f) then (ofFloat f).whole + 1 else (ofFloat f).whole
    next.isFinite ∧ value next = (if isNegative f then -(k : Int) else k : Int) := by
  have short := (isCanonical_ofBits f.toBits).short
  refine value_mapWhole finite ?_ ?_ <;> split
  · exact (nearestNat_whole_succ short (broken ‹_›)).1
  · exact nearestNat_whole short
  · exact (nearestNat_whole_succ short (broken ‹_›)).2.trans_lt (two_pow_lt (by decide))
  · exact whole_lt finite

theorem rest_div_nonneg (x : Double) : 0 ≤ (x.rest : ℚ) / x.divisor := by positivity

theorem rest_div_pos {x : Double} (broken : x.rest ≠ 0) : 0 < (x.rest : ℚ) / x.divisor :=
  div_pos (mod_cast Nat.pos_of_ne_zero broken) (mod_cast x.divisor_pos)

theorem half_le_rest_div (x : Double) : 1 / 2 ≤ (x.rest : ℚ) / x.divisor ↔ x.divisor ≤ 2 * x.rest := by
  rw [div_le_div_iff₀ two_pos (mod_cast x.divisor_pos), one_mul, mul_comm]
  exact_mod_cast Iff.rfl

theorem value_floor {f : Float} (finite : f.isFinite) :
    (floor f).isFinite ∧ value (floor f) = ⌊value f⌋ := by
  have ⟨finite', same⟩ := value_mapWhole_next (fun negative x => negative ∧ x.rest ≠ 0)
    finite And.right
  refine ⟨finite', same.trans (congrArg Int.cast ?_)⟩
  have least := rest_div_nonneg (ofFloat f)
  have below := rest_div_lt (ofFloat f)
  rw [eq_comm, Int.floor_eq_iff, value, magnitude_eq_add]
  cases isNegative f with
  | false => simp [least, below]
  | true =>
    -- below zero, what is left out behind the point leads up
    simp only [if_true, true_and]
    split
    case isTrue broken =>
      have pos := rest_div_pos broken
      push_cast
      constructor <;> linarith
    case isFalse whole => simp [not_not.mp whole]

theorem value_ceil {f : Float} (finite : f.isFinite) :
    (ceil f).isFinite ∧ value (ceil f) = ⌈value f⌉ := by
  have ⟨finite', same⟩ := value_mapWhole_next (fun negative x => ¬negative ∧ x.rest ≠ 0)
    finite And.right
  refine ⟨finite', same.trans (congrArg Int.cast ?_)⟩
  have least := rest_div_nonneg (ofFloat f)
  have below := rest_div_lt (ofFloat f)
  rw [eq_comm, Int.ceil_eq_iff, value, magnitude_eq_add]
  cases isNegative f with
  | true =>
    simp only [not_true_eq_false, false_and, if_true, if_false]
    push_cast
    constructor <;> linarith
  | false =>
    simp only [Bool.false_eq_true, if_false, not_false_eq_true, true_and]
    split
    case isTrue broken =>
      have pos := rest_div_pos broken
      push_cast
      constructor <;> linarith
    case isFalse whole => simp [not_not.mp whole]

/-- The nearest integer, and of two the one that is farther from zero. -/
def roundHalfAway (v : ℚ) : Int := if v < 0 then -⌊-v + 1 / 2⌋ else ⌊v + 1 / 2⌋

theorem floor_magnitude_add_half (x : Double) :
    ⌊x.magnitude + 1 / 2⌋ = (if x.divisor ≤ 2 * x.rest then x.whole + 1 else x.whole : Nat) := by
  have least := rest_div_nonneg x
  have below := rest_div_lt x
  rw [Int.floor_eq_iff, magnitude_eq_add]
  split
  case isTrue high =>
    have := (half_le_rest_div x).mpr high
    push_cast
    constructor <;> linarith
  case isFalse low =>
    have := not_le.mp (mt (half_le_rest_div x).mp low)
    push_cast
    constructor <;> linarith

theorem roundHalfAway_neg {v : ℚ} (pos : 0 ≤ v) : roundHalfAway (-v) = -⌊v + 1 / 2⌋ := by
  rcases eq_or_lt_of_le pos with rfl | pos
  · decide +kernel
  · rw [roundHalfAway, if_pos (neg_lt_zero.mpr pos), neg_neg]

theorem value_round {f : Float} (finite : f.isFinite) :
    (round f).isFinite ∧ value (round f) = roundHalfAway (value f) := by
  have broken : (ofFloat f).divisor ≤ 2 * (ofFloat f).rest → (ofFloat f).rest ≠ 0 := by
    have := divisor_pos (ofFloat f)
    omega
  have ⟨finite', same⟩ := value_mapWhole_next (fun _ x => x.divisor ≤ 2 * x.rest)
    finite broken
  refine ⟨finite', same.trans (congrArg Int.cast ?_)⟩
  have least : 0 ≤ (ofFloat f).magnitude := by rw [magnitude_eq_div]; positivity
  rw [value, ← floor_magnitude_add_half]
  split
  · exact (roundHalfAway_neg least).symm
  · rw [roundHalfAway, if_neg (not_lt.mpr least)]

theorem roundHalfAway_intCast (n : Int) : roundHalfAway n = n := by
  have half : ⌊(1 / 2 : ℚ)⌋ = 0 := by decide +kernel
  rw [roundHalfAway, ← Int.cast_neg, Int.floor_intCast_add, Int.floor_intCast_add, half, Int.add_zero,
    Int.add_zero, Int.neg_neg, ite_self]

/-- A whole number is its part in front of the point. -/
theorem toInt_eq {f : Float} {n : Int} (whole : value f = n) : toInt f = n := by
  have front : ((ofFloat f).whole : Int) = ⌊(ofFloat f).magnitude⌋ := (floor_magnitude _).symm
  rw [toInt, front]
  rw [value] at whole
  split at whole
  case isTrue negative =>
    rw [if_pos negative, neg_eq_iff_eq_neg.mp whole, ← Int.cast_neg, Int.floor_intCast, Int.neg_neg]
  case isFalse positive => rw [if_neg positive, whole, Int.floor_intCast]

end Double

namespace Number

theorem integral_range {f : Float} {n : Int} (finite : f.isFinite) (whole : Double.value f = n) :
    (f.isFinite ∧ Float.ofInt Int64.minValue.toInt ≤ f ∧ f ≤ Float.ofInt Int64.maxValue.toInt) ↔
      -2 ^ 63 ≤ n ∧ n ≤ 2 ^ 63 := by
  have ⟨finiteLeast, least⟩ := Double.value_ofInt (n := Int64.minValue.toInt) (by decide +kernel)
  have ⟨finiteGreatest, greatest⟩ := Double.value_ofInt (n := Int64.maxValue.toInt) (by decide +kernel)
  have exact : Double.nearest Int64.minValue.toInt = -2 ^ 63 := by decide +kernel
  -- the greatest integer has one bit too many, and the double nearest to it comes behind it
  have rounded : Double.nearest Int64.maxValue.toInt = 2 ^ 63 := by decide +kernel
  rw [Double.le_iff finiteLeast finite, Double.le_iff finite finiteGreatest, least, greatest, exact,
    rounded, whole, Int.cast_le, Int.cast_le]
  exact and_iff_right finite

/-- The integer made of a whole double. Right behind the greatest integer it is still that one. -/
theorem integral_eq {f : Float} {n : Int} (finite : f.isFinite) (whole : Double.value f = n) :
    integral f = if -2 ^ 63 ≤ n ∧ n < 2 ^ 63 then .int (Int64.ofInt n)
      else if n = 2 ^ 63 then .int Int64.maxValue else .float f := by
  have greatest : Int64.maxValue.toInt = 2 ^ 63 - 1 := by decide
  simp only [integral, integral_range finite whole, Double.toInt_eq whole]
  rw [greatest]
  rcases lt_trichotomy n (2 ^ 63) with inside | rfl | outside
  · by_cases least : -2 ^ 63 ≤ n
    · rw [if_pos ⟨least, inside.le⟩, if_pos ⟨least, inside⟩, min_eq_left (by omega)]
    · rw [if_neg (by omega), if_neg (by omega), if_neg (by omega)]
  · rfl
  · rw [if_neg (by omega), if_neg (by omega), if_neg (by omega)]

def rounded (n : Int64) : Int64 :=
  if Double.nearest n.toInt = 2 ^ 63 then Int64.maxValue else Int64.ofInt (Double.nearest n.toInt)

theorem integral_of_nearest {n : Int64} {f : Float} (finite : f.isFinite)
    (same : Double.value f = Double.nearest n.toInt) : integral f = .int (rounded n) := by
  have bound := Double.natAbs_nearest n.toInt ▸ Double.nearestNat_toInt_le n
  rw [integral_eq finite same, rounded]
  split
  case isTrue inside => rw [if_neg (by omega)]
  case isFalse outside => rw [if_pos (by omega), if_pos (by omega)]

theorem toInt_rounded (n : Int64) :
    (rounded n).toInt = Double.nearest n.toInt - if Double.nearest n.toInt = 2 ^ 63 then 1 else 0 := by
  have bound := Double.natAbs_nearest n.toInt ▸ Double.nearestNat_toInt_le n
  rw [rounded]
  split
  case isTrue last => rw [last]; decide
  case isFalse inside =>
    rw [Int64.toInt_ofInt_of_le (by omega) (by omega), Int.sub_zero]

/-- Rounding an integer only takes it to a double and back. -/
theorem round_int (n : Int64) :
    (Number.int n).floor = .int (rounded n) ∧ (Number.int n).ceil = .int (rounded n) ∧
      (Number.int n).round = .int (rounded n) := by
  have ⟨finite, same⟩ := Double.value_toInt n
  have ⟨finiteFloor, floor⟩ := Double.value_floor finite
  have ⟨finiteCeil, ceil⟩ := Double.value_ceil finite
  have ⟨finiteRound, round⟩ := Double.value_round finite
  rw [same, Int.floor_intCast] at floor
  rw [same, Int.ceil_intCast] at ceil
  rw [same, Double.roundHalfAway_intCast] at round
  exact ⟨integral_of_nearest finiteFloor floor, integral_of_nearest finiteCeil ceil,
    integral_of_nearest finiteRound round⟩

/-- The integers that rounding does not change: those that are doubles, and the greatest. -/
theorem rounded_eq_iff (n : Int64) :
    rounded n = n ↔ Double.nearest n.toInt = n.toInt ∨ n = Int64.maxValue := by
  have below := n.toInt_lt
  have greatest : Int64.maxValue.toInt = 2 ^ 63 - 1 := by decide
  rw [← Int64.toInt_inj, ← Int64.toInt_inj (y := Int64.maxValue), toInt_rounded, greatest]
  constructor
  · split <;> omega
  · rintro (exact | last)
    · rw [exact, if_neg (by omega), Int.sub_zero]
    · have rounded : Double.nearest (2 ^ 63 - 1) = 2 ^ 63 := by decide +kernel
      rw [last, rounded, if_pos rfl]

/-- Rounding once more changes nothing. -/
theorem rounded_rounded (n : Int64) : rounded (rounded n) = rounded n := by
  rw [rounded_eq_iff, toInt_rounded]
  split
  case isTrue last => exact .inr (if_pos last)
  case isFalse => exact .inl (by rw [Int.sub_zero, Double.nearest_nearest])

/-- The number made of a whole double has the same value, unless that is right behind the greatest
integer. -/
theorem value_integral_iff {f : Float} {n : Int} (finite : f.isFinite) (whole : Double.value f = n) :
    (integral f).value = Double.value f ↔ n ≠ 2 ^ 63 := by
  rw [integral_eq finite whole]
  split
  case isTrue inside =>
    rw [value, Int64.toInt_ofInt_of_le inside.1 inside.2, whole]
    exact iff_of_true rfl inside.2.ne
  case isFalse =>
    split
    case isTrue last =>
      subst last
      rw [value, whole, Int.cast_inj]
      decide
    case isFalse other => exact iff_of_true rfl other

example : integral 9223372036854775808 = .int 9223372036854775807 := by decide +kernel

end Number

end BasicScript
