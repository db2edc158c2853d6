import BasicScript.Number
import BasicScript.Proofs.Number.Nearest

/-! Integers as doubles. Rounding keeps the place of the highest bit or moves it up by one, so the
double of an integer other than zero is a normal number. It stands for the integer nearest to that
one among those with 53 bits; no such integer is taken for zero. -/

set_option autoImplicit false

namespace BasicScript

namespace Double

open Float.Model Float.Model.UnpackedFloat

/-- A number that stands for `v`, whose mantissa has all of its bits. -/
def IsNormal (v : ℚ) (x : UnpackedFloat) : Prop :=
  ∃ sign m e pos, x = .finite sign m e pos ∧ m.log2 = 52 ∧ -1074 ≤ e ∧
    (sign.apply m : ℚ) * 2 ^ e = v

/-! ### Rounding -/

/-- What is kept of the bits that are shifted out says how they compare to a half. -/
theorem shiftRight_exact (m k : Nat) :
    (⟨m, false, false⟩ : ExtendedMantissa) >>> k = ⟨m / 2 ^ k, decide (2 ^ k ≤ 2 * (m % 2 ^ k)),
      decide (2 * (m % 2 ^ k) ≠ 0 ∧ 2 * (m % 2 ^ k) ≠ 2 ^ k)⟩ := by
  induction k with
  | zero =>
    rw [Nat.pow_zero, Nat.div_one, Nat.mod_one]
    rfl
  | succ k ih =>
    have rest : m % 2 ^ (k + 1) = m % 2 ^ k + 2 ^ k * (m / 2 ^ k % 2) := Nat.mod_pow_succ
    have short : m % 2 ^ k < 2 ^ k := Nat.mod_lt m (Nat.two_pow_pos k)
    rw [show (⟨m, false, false⟩ : ExtendedMantissa) >>> (k + 1) =
      ((⟨m, false, false⟩ : ExtendedMantissa) >>> k).shiftRightOne from rfl, ih, rest,
      ExtendedMantissa.shiftRightOne, Nat.pow_succ, Nat.div_div_eq_div_mul]
    clear ih rest
    generalize 2 ^ k = d at short ⊢
    rw [ExtendedMantissa.mk.injEq, bne, beq_eq_decide, ← decide_not, ← Bool.decide_or,
      decide_eq_decide, decide_eq_decide]
    -- the bit that goes now was kept in front: the ones before it only say whether there is more
    rcases Nat.mod_two_eq_zero_or_one (m / d) with bit | bit <;> rw [bit] <;>
      exact ⟨rfl, by omega, by omega⟩

theorem roundedMantissa_shiftRight (m k : Nat) :
    ((⟨m, false, false⟩ : ExtendedMantissa) >>> k).roundedMantissa = roundDiv m (2 ^ k) := by
  have pos := Nat.two_pow_pos k
  rw [shiftRight_exact, roundDiv]
  split
  case isTrue low =>
    rw [decide_eq_false (by omega)]
    cases decide (2 * (m % 2 ^ k) ≠ 0 ∧ 2 * (m % 2 ^ k) ≠ 2 ^ k) <;> rfl
  case isFalse high =>
    rw [decide_eq_true (by omega)]
    split
    case isTrue => rw [decide_eq_true (by omega)]; rfl
    case isFalse => rw [decide_eq_false (by omega)]; rfl

theorem targetExponent_eq {m : Nat} {e : Int} (low : -1022 ≤ m.log2 + e) :
    Format.binary64.targetExponent (totalExponent m e) = m.log2 + e - 52 := by
  have least : Format.binary64.minExponent = -1074 := by decide
  have bits : Format.binary64.mantissaBits = 53 := rfl
  rw [Format.targetExponent, totalExponent, least, bits]
  omega

theorem shift_eq {m : Nat} {e : Int} (long : 52 ≤ m.log2) (low : -1022 ≤ m.log2 + e) :
    shiftToTargetExponent .binary64 m e .exact =
      ((⟨m, false, false⟩ : ExtendedMantissa) >>> (m.log2 - 52), e + (m.log2 - 52 : Nat)) := by
  have amount : (m.log2 + e - 52 - e).toNat = m.log2 - 52 := by omega
  dsimp only [shiftToTargetExponent, shiftToExponent]
  rw [targetExponent_eq low, amount]
  rfl

theorem IsNormal.round {m : Nat} {e : Int} (sign : Sign) (long : 52 ≤ m.log2)
    (low : -1022 ≤ m.log2 + e) :
    IsNormal (sign.apply (nearestNat m) * 2 ^ e) (roundWithAccuracy .binary64 sign m e .exact) := by
  have ⟨least, greatest⟩ := roundDiv_unit_bounds long
  have value : nearestNat m = roundDiv m (unit m) * 2 ^ (m.log2 - 52) := rfl
  dsimp only [roundWithAccuracy]
  rw [shift_eq long low]
  dsimp only
  rw [roundedMantissa_shiftRight, ← unit]
  generalize roundDiv m (unit m) = r at least greatest value ⊢
  -- the rounded mantissa may have got one more bit, which the second shift takes away
  have pos : r ≠ 0 := by omega
  have bits : 52 ≤ r.log2 := (Nat.le_log2 pos).mpr least
  have kept : ∃ m', r / 2 ^ (r.log2 - 52) = m' ∧ m'.log2 = 52 ∧ r = m' * 2 ^ (r.log2 - 52) := by
    rcases Nat.lt_or_eq_of_le greatest with short | rfl
    · have exact : r.log2 = 52 := (Nat.log2_eq_iff pos).mpr ⟨least, short⟩
      exact ⟨r, by simp [exact], exact, by simp [exact]⟩
    · exact ⟨2 ^ 52, by decide, by decide, by decide⟩
  obtain ⟨m', front, normal, whole⟩ := kept
  rw [shift_eq bits (by omega), shiftRight_exact]
  dsimp only
  rw [front, dif_neg (by rintro rfl; simp at normal)]
  refine ⟨_, _, _, _, rfl, normal, by omega, ?_⟩
  have shifted : (2 : ℚ) ^ (e + (m.log2 - 52 : Nat) + (r.log2 - 52 : Nat)) =
      2 ^ e * 2 ^ (m.log2 - 52) * 2 ^ (r.log2 - 52) := by
    rw [zpow_add₀ two_ne_zero, zpow_add₀ two_ne_zero, zpow_natCast, zpow_natCast]
  rw [value, shifted]
  generalize r.log2 - 52 = carried at whole
  rw [whole]
  cases sign <;> simp only [Sign.apply] <;> push_cast <;> ring

theorem abs_apply (sign : Sign) (m : Nat) (e : Int) : |(sign.apply m : ℚ) * 2 ^ e| = m * 2 ^ e := by
  have pos : (0 : ℚ) < 2 ^ e := zpow_pos two_pos e
  cases sign <;> simp [Sign.apply, abs_mul, abs_of_pos pos]

theorem apply_neg (sign : Sign) (n : Int) : (-sign).apply n = -sign.apply n := by
  cases sign with
  | negative => exact (Int.neg_neg n).symm
  | positive => rfl

/-- Normal numbers are doubles. -/
theorem IsNormal.packed {v : ℚ} {x : UnpackedFloat} (normal : IsNormal v x) (fits : |v| < 2 ^ 1024) :
    UnpackedFloat.unpack .binary64 (UnpackedFloat.pack .binary64 x) = x := by
  obtain ⟨sign, m, e, pos, rfl, bits, low, rfl⟩ := normal
  have ⟨least, greatest⟩ := (Nat.log2_eq_iff pos.ne').mp bits
  have high : e ≤ 971 := by
    have below : (2 : ℚ) ^ (52 + e) < 2 ^ (1024 : Int) := by
      refine lt_of_le_of_lt ?_ (abs_apply sign m e ▸ fits)
      rw [zpow_add₀ two_ne_zero]
      exact mul_le_mul_of_nonneg_right (mod_cast least) (zpow_pos two_pos e).le
    have := (zpow_lt_zpow_iff_right₀ one_lt_two).mp below
    omega
  obtain ⟨b, same⟩ : ∃ b : Nat, (b : Int) = e + 1075 := ⟨(e + 1075).toNat, by omega⟩
  have bias : (Format.binary64.exponentBias : Int) = 1023 := by decide
  have field : (BitVec.ofNat 11 b).toNat = b := Nat.mod_eq_of_lt (by omega)
  have notLast : BitVec.ofNat 11 b ≠ -1#11 := fun last => by
    have : b = 2047 := field.symm.trans (congrArg BitVec.toNat last)
    omega
  have notFirst : BitVec.ofNat 11 b ≠ 0#11 := fun first => by
    have : b = 0 := field.symm.trans (congrArg BitVec.toNat first)
    omega
  have packed : UnpackedFloat.pack .binary64 (.finite sign m e pos) =
      packComponents .binary64 sign (BitVec.ofNat 11 b) (BitVec.ofNat 52 m) := by
    have biased : (e + (Format.binary64.exponentBias : Int) +
        Format.binary64.mantissaBitsWithoutImplicit).toNat = b := by
      rw [bias, show ((Format.binary64.mantissaBitsWithoutImplicit : Nat) : Int) = 52 from rfl]
      omega
    rw [UnpackedFloat.pack]
    simp only [biased]
    rw [if_neg (by omega), if_pos (by rw [bits]; rfl)]
  -- the highest bit is left out of the bits of a double
  have mantissa : (1#1 ++ BitVec.ofNat 52 m).toNat = m := by
    have behind : (BitVec.ofNat 52 m).toNat = m % 2 ^ 52 := rfl
    rw [BitVec.toNat_append, ← Nat.shiftLeft_add_eq_or_of_lt (BitVec.isLt _), behind]
    show 1 <<< 52 + m % 2 ^ 52 = m
    omega
  rw [packed, UnpackedFloat.unpack]
  simp only [unpackExponent_packComponents, unpackMantissa_packComponents, unpackSign_packComponents,
    Sign.ofBitVec_toBitVec]
  rw [if_neg notLast, if_neg notFirst]
  simp only [mantissa, field, same, bias]
  congr 1
  show e + 1075 - (1023 + 52 : Int) = e
  omega

theorem two_pow_lt {k : Nat} (few : k < 1024) : 2 ^ k < 2 ^ 1024 := pow_lt_pow_right₀ one_lt_two few

theorem IsNormal.unpack {v : ℚ} {x : UnpackedFloat} (normal : IsNormal v x) (fits : |v| < 2 ^ 1024) :
    IsNormal v (Float.Model.pack x).unpack := by
  rwa [show (Float.Model.pack x).unpack = x from normal.packed fits]

/-! ### Integers -/

theorem mul_finite {format : Format} {s t : Sign} {m n : Nat} {e f : Int} (pos : 0 < m) (pos' : 0 < n) :
    UnpackedFloat.mul format (.finite s m e pos) (.finite t n f pos') =
      roundWithAccuracy format (s * t) (m * n) (e + f) .exact := rfl

theorem IsNormal.round_mul_two_pow {m k : Nat} {e : Int} (sign : Sign) (pos : m ≠ 0)
    (long : 52 ≤ m.log2 + k) (low : -1022 ≤ m.log2 + e) :
    IsNormal (sign.apply (nearestNat m) * 2 ^ e)
      (roundWithAccuracy .binary64 sign (m * 2 ^ k) (e - k) .exact) := by
  have bits := log2_mul_two_pow pos k
  have rounded := IsNormal.round (m := m * 2 ^ k) (e := e - k) sign (by omega) (by omega)
  have value : (sign.apply (nearestNat m) : ℚ) * 2 ^ e =
      sign.apply (nearestNat (m * 2 ^ k)) * 2 ^ (e - k) := by
    rw [nearestNat_mul_two_pow pos, zpow_sub₀ two_ne_zero, zpow_natCast]
    cases sign <;> simp only [Sign.apply] <;> push_cast <;> field_simp
  rwa [value]

/-- Multiplying by one rounds once more. -/
theorem IsNormal.mul_one {v : ℚ} {x : UnpackedFloat} (normal : IsNormal v x) :
    IsNormal v (UnpackedFloat.mul .binary64 x
      (.finite .positive (2 ^ 52) (-52) (Nat.two_pow_pos 52))) := by
  obtain ⟨sign, m, e, pos, rfl, bits, low, rfl⟩ := normal
  have short := ((Nat.log2_eq_iff pos.ne').mp bits).2
  have rounded := IsNormal.round_mul_two_pow (k := 52) (e := e) sign pos.ne' (by omega) (by omega)
  rw [nearestNat_of_le short.le] at rounded
  cases sign <;> exact rounded

theorem IsNormal.neg {v : ℚ} {x : UnpackedFloat} (normal : IsNormal v x) : IsNormal (-v) x.neg := by
  obtain ⟨sign, m, e, pos, rfl, bits, low, rfl⟩ := normal
  refine ⟨-sign, m, e, pos, rfl, bits, low, ?_⟩
  rw [apply_neg, Int.cast_neg, neg_mul]

theorem normal_ofUInt64 {n : UInt64} (pos : n.toNat ≠ 0) :
    IsNormal (nearestNat n.toNat) n.toFloat.toModel.unpack := by
  have signed : compare (n.toNat : Int) 0 = .gt := by
    rw [Int.compare_eq_gt]
    omega
  have rounded : IsNormal (nearestNat n.toNat) (UnpackedFloat.ofUInt64 .binary64 n) := by
    simp only [UnpackedFloat.ofUInt64, UnpackedFloat.ofNat, UnpackedFloat.ofInt, UnpackedFloat.normalize,
      signed, UnpackedFloat.round, decreaseExponent, Int.toNat_natCast,
      targetExponent_eq (m := n.toNat) (e := 0) (by omega), Nat.shiftLeft_eq]
    simpa [Sign.apply] using IsNormal.round_mul_two_pow (e := 0) .positive pos
      (k := (0 - (n.toNat.log2 + 0 - 52 : Int)).toNat) (by omega) (by omega)
  have short : nearestNat n.toNat ≤ 2 ^ 64 := nearestNat_le_two_pow n.toNat_lt.le
  refine rounded.unpack ?_
  rw [Nat.abs_cast]
  exact_mod_cast short.trans_lt (two_pow_lt (by decide))

theorem normal_ofNat {n : Nat} (pos : n ≠ 0) (fits : nearestNat n < 2 ^ 1024) :
    IsNormal (nearestNat n) (Float.ofNat n).toModel.unpack := by
  have fits : |(nearestNat n : ℚ)| < 2 ^ 1024 := by
    rw [Nat.abs_cast]
    exact_mod_cast fits
  unfold Float.ofNat OfScientific.ofScientific instOfScientificFloat Float.ofScientific
  dsimp only
  split
  case isTrue short =>
    -- a short number is multiplied by a power of ten, which here is one
    have one : (Float.exactlyRepresentablePowersOfTen[0]).toModel.unpack =
        .finite .positive (2 ^ 52) (-52) (Nat.two_pow_pos 52) := rfl
    have same : n.toUInt64.toNat = n := Nat.mod_eq_of_lt (by omega)
    have product := (normal_ofUInt64 (n := n.toUInt64) (by rwa [same])).mul_one
    rw [← one, same] at product
    exact product.unpack fits
  case isFalse long =>
    have width : Format.binary64.mantissaBits = 53 := rfl
    have field : Format.binary64.exponentBits = 11 := rfl
    have rounded : IsNormal (nearestNat n) (UnpackedFloat.ofScientific .binary64 n 0) := by
      simp only [UnpackedFloat.ofScientific, dif_neg pos, width]
      rw [if_neg (by omega), if_neg (by omega), if_pos (by omega), mul_finite,
        show Sign.positive * Sign.positive = .positive from rfl]
      simpa [Sign.apply, Nat.shiftLeft_eq] using
        IsNormal.round_mul_two_pow (k := 53) (e := 0) .positive pos (by omega) (by omega)
    exact rounded.unpack fits

theorem normal_ofInt {n : Int} (pos : n ≠ 0) (fits : nearestNat n.natAbs < 2 ^ 1024) :
    IsNormal (nearest n) (Float.ofInt n).toModel.unpack := by
  cases n with
  | ofNat n =>
    rw [Int.ofNat_eq_natCast, nearest_natCast]
    exact normal_ofNat (fun zero => pos (congrArg Int.ofNat zero)) fits
  | negSucc n =>
    have normal := (normal_ofNat (Nat.succ_ne_zero n) fits).neg
    rw [← Int.cast_natCast, ← Int.cast_neg, ← nearest_natCast, ← nearest_neg] at normal
    refine normal.unpack ?_
    rw [← Int.cast_abs, Int.abs_eq_natAbs, Int.cast_natCast, natAbs_nearest, Int.natAbs_neg]
    exact_mod_cast fits

theorem nearestNat_toInt_le (n : Int64) : nearestNat n.toInt.natAbs ≤ 2 ^ 63 := by
  have least := n.le_toInt
  have greatest := n.toInt_lt
  exact nearestNat_le_two_pow (by omega)

theorem nearestNat_toInt_lt (n : Int64) : nearestNat n.toInt.natAbs < 2 ^ 1024 :=
  (nearestNat_toInt_le n).trans_lt (two_pow_lt (by decide))

theorem IsNormal.ne_zero {v : ℚ} {f : Float} (normal : IsNormal v f.toModel.unpack) :
    (f == 0.0) = false := by
  obtain ⟨sign, m, e, pos, same, _⟩ := normal
  have zero : (0.0 : Float).toModel.unpack = .zero .positive := rfl
  show UnpackedFloat.beq f.toModel.unpack (0.0 : Float).toModel.unpack = false
  rw [same, zero]
  cases sign <;> rfl

end Double

namespace Number

theorem isZero_int (n : Int64) : (Number.int n).isZero = (n == 0) := by
  by_cases zero : n = 0
  · subst zero
    decide +kernel
  · have nonzero : n.toInt ≠ 0 := fun same => zero (Int64.toInt_inj.mp same)
    rw [beq_eq_false_iff_ne.mpr zero]
    exact (Double.normal_ofInt nonzero (Double.nearestNat_toInt_lt n)).ne_zero

end Number

end BasicScript
