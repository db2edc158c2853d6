import BasicScript.Proofs.Number.Double

/-! Doubles and their exact values. The machine compares two doubles by their exponents first and by
their mantissas then; for finite ones this is the order of their values. The double of an integer
has the value nearest to it that a double can have. -/

set_option autoImplicit false

namespace BasicScript

namespace Double

open Float.Model Float.Model.UnpackedFloat

def magnitude (x : Double) : ℚ := x.mantissa * 2 ^ x.exponent

def value (f : Float) : ℚ :=
  if isNegative f then -(ofFloat f).magnitude else (ofFloat f).magnitude

/-- A mantissa with 53 bits, or with fewer only at the least exponent. -/
structure IsCanonical (x : Double) : Prop where
  short : x.mantissa < 2 ^ 53
  full : 2 ^ 52 ≤ x.mantissa ∨ x.exponent = -1074
  least : -1074 ≤ x.exponent

theorem toNat_unpackExponent (bits : UInt64) :
    (@unpackExponent .binary64 bits.toBitVec).toNat = ((bits >>> 52) &&& 0x7FF).toNat := by
  rw [unpackExponent_def, BitVec.extractLsb'_toNat, UInt64.toNat_and, UInt64.toNat_shiftRight]
  exact (Nat.and_two_pow_sub_one_eq_mod _ 11).symm

theorem toNat_unpackMantissa (bits : UInt64) :
    (@unpackMantissa .binary64 bits.toBitVec).toNat = (bits &&& 0xFFFFFFFFFFFFF).toNat := by
  rw [unpackMantissa_def, BitVec.extractLsb'_toNat, UInt64.toNat_and]
  exact (Nat.and_two_pow_sub_one_eq_mod _ 52).symm

theorem toNat_unpackSign (bits : UInt64) :
    (@unpackSign .binary64 bits.toBitVec).toNat = (bits >>> 63).toNat := by
  rw [unpackSign_def, BitVec.extractLsb'_toNat, UInt64.toNat_shiftRight]
  have := bits.toNat_lt
  show bits.toNat >>> 63 % 2 = bits.toNat >>> 63
  omega

theorem isCanonical_ofBits (bits : UInt64) : IsCanonical (ofBits bits) := by
  have fraction : (bits &&& 0xFFFFFFFFFFFFF).toNat < 2 ^ 52 := toNat_unpackMantissa bits ▸ BitVec.isLt _
  unfold ofBits
  dsimp only
  split
  · exact ⟨by dsimp only; omega, .inr rfl, le_refl _⟩
  · exact ⟨by dsimp only; omega, .inl (by dsimp only; omega), by dsimp only; omega⟩

def sign (f : Float) : Sign := if isNegative f then .negative else .positive

def unpacked (sign : Sign) (x : Double) : UnpackedFloat :=
  if pos : 0 < x.mantissa then .finite sign x.mantissa x.exponent pos else .zero sign

theorem ofBitVec_unpackSign (f : Float) :
    Sign.ofBitVec (@unpackSign .binary64 f.toBits.toBitVec) = sign f := by
  have same := toNat_unpackSign f.toBits
  have positive : f.toBits >>> 63 = 1 ↔ (f.toBits >>> 63).toNat = 1 := UInt64.toNat_inj.symm
  simp only [sign, isNegative, decide_eq_true_eq, positive, ← same]
  generalize @unpackSign .binary64 f.toBits.toBitVec = bit
  rcases BitVec.eq_zero_or_eq_one bit with rfl | rfl <;> rfl

theorem finite_eq_unpacked {s : Sign} {m : Nat} {e e' : Int} {b : Bool} (pos : 0 < m)
    (same : e = e') : UnpackedFloat.finite s m e pos = unpacked s ⟨m, e', b⟩ := by
  subst same
  exact (dif_pos pos).symm

/-- The machine takes a finite double apart into its sign and magnitude. -/
theorem unpack_eq {f : Float} (finite : f.isFinite) :
    f.toModel.unpack = unpacked (sign f) (ofFloat f) := by
  have bias : (Format.binary64.exponentBias : Int) = 1023 := by decide
  have width : ((Format.binary64.mantissaBitsWithoutImplicit : Nat) : Int) = 52 := rfl
  change UnpackedFloat.isFinite (UnpackedFloat.unpack .binary64 f.toBits.toBitVec) at finite
  change UnpackedFloat.unpack .binary64 f.toBits.toBitVec = _
  rw [ofFloat, ofBits, ← toNat_unpackExponent, ← toNat_unpackMantissa, ← ofBitVec_unpackSign]
  revert finite
  -- infinities and the undefined number; a zero; no highest bit; a highest bit that is left out
  fun_cases UnpackedFloat.unpack .binary64 f.toBits.toBitVec with
  | case1 | case2 => rintro ⟨⟩
  | case3 fraction field _ _ _ first zero =>
    have first : (@unpackExponent .binary64 f.toBits.toBitVec).toNat = 0 :=
      congrArg BitVec.toNat first
    have zero : (@unpackMantissa .binary64 f.toBits.toBitVec).toNat = 0 :=
      congrArg BitVec.toNat zero
    rw [if_pos first, zero]
    exact fun _ => rfl
  | case4 fraction field e _ _ _ first =>
    have first : (@unpackExponent .binary64 f.toBits.toBitVec).toNat = 0 :=
      congrArg BitVec.toNat first
    rw [if_pos first]
    refine fun _ => finite_eq_unpacked _ ?_
    dsimp only [e, field]
    rw [first, bias, width]
    rfl
  | case5 fraction field e _ _ _ first =>
    have later : (@unpackExponent .binary64 f.toBits.toBitVec).toNat ≠ 0 :=
      fun same => first (BitVec.toNat_inj.mp same)
    have mantissa : (1#1 ++ fraction).toNat = 0x10000000000000 + fraction.toNat := by
      rw [BitVec.toNat_append, ← Nat.shiftLeft_add_eq_or_of_lt (BitVec.isLt _)]
      rfl
    rw [if_neg later]
    simp only [mantissa]
    refine fun _ => finite_eq_unpacked _ ?_
    dsimp only [e, field]
    rw [bias, width]
    omega

/-! ### Order -/

theorem magnitude_pos {x : Double} (pos : 0 < x.mantissa) : 0 < x.magnitude :=
  mul_pos (mod_cast pos) (zpow_pos two_pos _)

theorem magnitude_eq_zero {x : Double} (zero : ¬0 < x.mantissa) : x.magnitude = 0 := by
  rw [magnitude, Nat.eq_zero_of_not_pos zero, Nat.cast_zero, zero_mul]

/-- Fewer bits at a smaller exponent stay behind a number with all of its bits. -/
theorem magnitude_lt_two_pow {x : Double} (short : x.mantissa < 2 ^ 53) {k : Int}
    (low : x.exponent < k) : x.magnitude < 2 ^ 52 * 2 ^ k := by
  calc x.magnitude < 2 ^ 53 * 2 ^ x.exponent :=
        mul_lt_mul_of_pos_right (mod_cast short) (zpow_pos two_pos _)
    _ = 2 ^ 52 * 2 ^ (x.exponent + 1) := by rw [zpow_add_one₀ two_ne_zero]; ring
    _ ≤ 2 ^ 52 * 2 ^ k := by gcongr; norm_num; omega

/-- The greater exponent decides: the mantissa behind it has all of its bits. -/
theorem IsCanonical.magnitude_lt {x y : Double} (canonical : IsCanonical x) (canonical' : IsCanonical y)
    (less : x.exponent < y.exponent) : x.magnitude < y.magnitude := by
  have least := canonical.least
  have full : 2 ^ 52 ≤ y.mantissa := canonical'.full.resolve_right (by omega)
  calc x.magnitude < 2 ^ 52 * 2 ^ y.exponent := magnitude_lt_two_pow canonical.short less
    _ ≤ y.magnitude := mul_le_mul_of_nonneg_right (mod_cast full) (zpow_pos two_pos _).le

theorem IsCanonical.compares {x y : Double} (canonical : IsCanonical x) (canonical' : IsCanonical y) :
    ((compare x.exponent y.exponent).then (compare x.mantissa y.mantissa)).Compares
      x.magnitude y.magnitude := by
  rcases lt_trichotomy x.exponent y.exponent with less | same | greater
  · rw [compare_lt_iff_lt.mpr less]
    exact canonical.magnitude_lt canonical' less
  -- both mantissas count the same unit
  · have pos : (0 : ℚ) < 2 ^ y.exponent := zpow_pos two_pos _
    rw [same, compare_eq_iff_eq.mpr rfl, Ordering.eq_then, magnitude, magnitude, same]
    rcases lt_trichotomy x.mantissa y.mantissa with less | same | greater
    · rw [compare_lt_iff_lt.mpr less]
      exact mul_lt_mul_of_pos_right (mod_cast less) pos
    · rw [compare_eq_iff_eq.mpr same, same]
      rfl
    · rw [compare_gt_iff_gt.mpr greater]
      exact mul_lt_mul_of_pos_right (mod_cast greater) pos
  · rw [compare_gt_iff_gt.mpr greater]
    exact canonical'.magnitude_lt canonical greater

def signed : Sign → Double → ℚ
  | .negative, x => -x.magnitude
  | .positive, x => x.magnitude

theorem value_eq (f : Float) : value f = signed (sign f) (ofFloat f) := by
  unfold value sign
  split <;> rfl

theorem compares_neg {o : Ordering} {a b : ℚ} (compares : o.Compares a b) :
    o.swap.Compares (-a) (-b) := by
  cases o with
  | lt => exact neg_lt_neg compares
  | eq => exact congrArg Neg.neg compares
  | gt => exact neg_lt_neg compares

/-- The signs decide first, then the magnitudes. -/
theorem IsCanonical.compare_unpacked {x y : Double} (s t : Sign) (canonical : IsCanonical x)
    (canonical' : IsCanonical y) :
    ∃ o, (unpacked s x).compare (unpacked t y) = some o ∧ o.Compares (signed s x) (signed t y) := by
  unfold unpacked
  split <;> split
  case isTrue.isTrue pos pos' =>
    have bits := magnitude_pos pos
    have bits' := magnitude_pos pos'
    -- where the signs differ they decide
    have mixed : -x.magnitude < y.magnitude ∧ -y.magnitude < x.magnitude := by
      constructor <;> linarith
    cases s <;> cases t
    case negative.negative => exact ⟨_, rfl, compares_neg (canonical.compares canonical')⟩
    case negative.positive => exact ⟨.lt, rfl, mixed.1⟩
    case positive.negative => exact ⟨.gt, rfl, mixed.2⟩
    case positive.positive => exact ⟨_, rfl, canonical.compares canonical'⟩
  case isTrue.isFalse pos zero =>
    have bits := magnitude_pos pos
    have none : signed t y = 0 := by cases t <;> simp [signed, magnitude_eq_zero zero]
    rw [none]
    cases s
    case negative => exact ⟨.lt, rfl, neg_lt_zero.mpr bits⟩
    case positive => exact ⟨.gt, rfl, bits⟩
  case isFalse.isTrue zero pos =>
    have bits := magnitude_pos pos
    have none : signed s x = 0 := by cases s <;> simp [signed, magnitude_eq_zero zero]
    rw [none]
    cases t
    case negative => exact ⟨.gt, rfl, neg_lt_zero.mpr bits⟩
    case positive => exact ⟨.lt, rfl, bits⟩
  case isFalse.isFalse zero zero' =>
    refine ⟨.eq, rfl, ?_⟩
    cases s <;> cases t <;>
      simp [signed, magnitude_eq_zero zero, magnitude_eq_zero zero', Ordering.Compares]

theorem compare_eq {f g : Float} (finite : f.isFinite) (finite' : g.isFinite) :
    ∃ o, f.toModel.compare g.toModel = some o ∧ o.Compares (value f) (value g) := by
  rw [Float.Model.compare, unpack_eq finite, unpack_eq finite', value_eq, value_eq]
  exact (isCanonical_ofBits _).compare_unpacked _ _ (isCanonical_ofBits _)

/-- Finite doubles compare as their values. -/
theorem beq_iff {f g : Float} (finite : f.isFinite) (finite' : g.isFinite) :
    (f == g) = true ↔ value f = value g := by
  obtain ⟨o, same, compares⟩ := compare_eq finite finite'
  have machine : (f == g) = (some o == some .eq) := same ▸ rfl
  rw [machine, beq_iff_eq, Option.some_inj, compares.eq_eq]

theorem le_iff {f g : Float} (finite : f.isFinite) (finite' : g.isFinite) :
    f ≤ g ↔ value f ≤ value g := by
  obtain ⟨o, same, compares⟩ := compare_eq finite finite'
  have machine : f ≤ g ↔ (some o).any (·.isLE) := same ▸ decide_eq_true_iff
  rw [machine, Option.any_some, ← compares.ne_gt]
  cases o <;> decide

/-! ### Integers -/

/-- A normal number stands for the value of the double. -/
theorem IsNormal.value_eq {v : ℚ} {f : Float} (normal : IsNormal v f.toModel.unpack) :
    f.isFinite ∧ value f = v := by
  obtain ⟨s, m, e, pos, same, -, -, rfl⟩ := normal
  have finite : f.isFinite := by
    show UnpackedFloat.isFinite f.toModel.unpack
    rw [same]
    rfl
  refine ⟨finite, ?_⟩
  rw [unpack_eq finite, unpacked] at same
  split at same
  case isFalse => cases same
  case isTrue pos' =>
    injection same with sign mantissa exponent
    rw [Double.value_eq, sign]
    cases s <;> simp [signed, magnitude, mantissa, exponent, Sign.apply]

theorem ofInt_zero : (Float.ofInt 0).isFinite ∧ value (Float.ofInt 0) = 0 := by
  refine ⟨by decide +kernel, ?_⟩
  rw [value, magnitude_eq_zero (by decide +kernel), neg_zero, ite_self]

theorem value_ofInt {n : Int} (fits : nearestNat n.natAbs < 2 ^ 1024) :
    (Float.ofInt n).isFinite ∧ value (Float.ofInt n) = nearest n := by
  rcases eq_or_ne n 0 with rfl | nonzero
  · exact ofInt_zero
  · exact (normal_ofInt nonzero fits).value_eq

/-- An integer as a double has the nearest value. -/
theorem value_toInt (n : Int64) :
    (Float.ofInt n.toInt).isFinite ∧ value (Float.ofInt n.toInt) = nearest n.toInt :=
  value_ofInt (nearestNat_toInt_lt n)

theorem nearestNat_closest_multiple (n : Nat) (k : Int) :
    |(n : ℚ) - nearestNat n| ≤ |(n : ℚ) - k * unit n| := by
  have closest := roundDiv_nearest n (unit_pos n) k
  rw [← Int.ofNat_le, ← Int.abs_eq_natAbs, ← Int.abs_eq_natAbs] at closest
  rw [nearestNat, Nat.cast_mul]
  exact_mod_cast closest

/-- No double lies nearer. -/
theorem nearestNat_closest (n : Nat) {x : Double} (short : x.mantissa < 2 ^ 53) :
    |(n : ℚ) - nearestNat n| ≤ |(n : ℚ) - x.magnitude| := by
  rcases Nat.lt_or_ge n (2 ^ 53) with small | large
  · rw [nearestNat_of_le small.le, sub_self, abs_zero]
    exact abs_nonneg _
  · have pos : n ≠ 0 := by omega
    have bits : 53 ≤ n.log2 := (Nat.le_log2 pos).mpr large
    -- a double is a multiple of the last bit that is left, or it lies below the first bit of `n`
    rcases le_or_gt ((n.log2 - 52 : Nat) : Int) x.exponent with high | low
    · obtain ⟨k, same⟩ := Int.le.dest high
      have grid : x.magnitude = (x.mantissa * 2 ^ k : Int) * unit n := by
        rw [magnitude, ← same, zpow_add₀ two_ne_zero, zpow_natCast, zpow_natCast, unit]
        push_cast
        ring
      rw [grid]
      exact nearestNat_closest_multiple n _
    · have below := magnitude_lt_two_pow short low
      have above : (2 : ℚ) ^ 52 * unit n ≤ n := by
        have least := Nat.log2_self_le pos
        rw [show n.log2 = 52 + (n.log2 - 52) by omega, Nat.pow_add] at least
        exact_mod_cast least
      rw [zpow_natCast] at below
      have between : x.magnitude < 2 ^ 52 * unit n := by
        rw [unit]
        exact_mod_cast below
      calc |(n : ℚ) - nearestNat n| ≤ |(n : ℚ) - (2 ^ 52 : Int) * unit n| :=
            nearestNat_closest_multiple n _
        _ = n - 2 ^ 52 * unit n := by push_cast; exact abs_of_nonneg (sub_nonneg.mpr above)
        _ ≤ n - x.magnitude := by linarith
        _ ≤ |(n : ℚ) - x.magnitude| := le_abs_self _

theorem nearest_closest (n : Int) (f : Float) : |(n : ℚ) - nearest n| ≤ |(n : ℚ) - value f| := by
  have canonical : IsCanonical (ofFloat f) := isCanonical_ofBits _
  have least : 0 ≤ (ofFloat f).magnitude := mul_nonneg (Nat.cast_nonneg _) (zpow_pos two_pos _).le
  have same (k : Nat) : |(k : ℚ) - nearestNat k| ≤ |(k : ℚ) - (ofFloat f).magnitude| :=
    nearestNat_closest k canonical.short
  have opposite (k : Nat) : |(k : ℚ) - nearestNat k| ≤ |(k : ℚ) + (ofFloat f).magnitude| := by
    have zero := nearestNat_closest k (x := ⟨0, 0, false⟩) (by decide)
    rw [magnitude_eq_zero (lt_irrefl 0), sub_zero, Nat.abs_cast] at zero
    exact zero.trans ((le_add_of_nonneg_right least).trans (le_abs_self _))
  have negated (a b : ℚ) : |-a - b| = |a + b| := by rw [← neg_add', abs_neg]
  unfold value
  rcases Int.eq_nat_or_neg n with ⟨k, rfl | rfl⟩
  · rw [nearest_natCast, Int.cast_natCast, Int.cast_natCast]
    split
    · rw [sub_neg_eq_add]
      exact opposite k
    · exact same k
  · rw [nearest_neg, nearest_natCast, Int.cast_neg, Int.cast_neg, Int.cast_natCast, Int.cast_natCast,
      negated, negated, ← sub_eq_add_neg]
    split
    · rw [← sub_eq_add_neg]
      exact same k
    · exact opposite k

end Double

def Number.value : Number → ℚ
  | .int n => n.toInt
  | .float f => Double.value f

end BasicScript
