import BasicScript.Number.Arithmetic
import BasicScript.Proofs.Number.Double

/-! Powers and remainders of integers. The power of two integers is exact as long as it fits, for
exponents of up to 32 bits; the remainder is the one of division with quotients rounded down, for
all but one pair of integers. Beyond that the result is a double, even where the exact one would
fit. -/

set_option autoImplicit false

namespace BasicScript.Number

variable {a b e n r : Int64}

/-! ### Powers -/

/-- A power with a long exponent and a base that is neither zero nor a unit does not fit. -/
theorem ofInt?_pow_eq_none {base : Int} {k : Nat} (large : 1 < base.natAbs) (long : 64 ≤ k) :
    ofInt? (base ^ k) = none := by
  rw [Option.eq_none_iff_forall_ne_some]
  intro n found
  have power : n.toInt.natAbs = base.natAbs ^ k := by
    rw [ofInt?_eq_some.mp found, Int.natAbs_pow]
  have least : 2 ^ 64 ≤ base.natAbs ^ k :=
    (Nat.pow_le_pow_left large 64).trans (Nat.pow_le_pow_right (by omega) long)
  have := n.le_toInt
  have := n.toInt_lt
  omega

/-- The powers of zero and of the units. -/
theorem pow_of_small {base : Int} {k : Nat} (small : ¬1 < base.natAbs) (pos : k ≠ 0) :
    base ^ k = if base = -1 ∧ k % 2 = 0 then 1 else base := by
  obtain rfl | rfl | rfl : base = -1 ∨ base = 0 ∨ base = 1 := by omega
  · split
    case isTrue even => exact Even.neg_one_pow (Nat.even_iff.mpr even.2)
    case isFalse odd => exact Odd.neg_one_pow (Nat.odd_iff.mpr (by omega))
  · rw [zero_pow pos, if_neg (by omega)]
  · rw [one_pow, if_neg (by omega)]

theorem power?_eq (b e : Int64) : power? b e =
    if 0 ≤ e.toInt ∧ e.toInt < UInt32.size then ofInt? (b.toInt ^ e.toInt.toNat) else none := by
  rw [power?]
  by_cases short : 0 ≤ e.toInt ∧ e.toInt < UInt32.size
  · have same : (e.toInt.toNat : Int) = e.toInt := Int.toNat_of_nonneg short.1
    rw [if_neg (by omega), if_pos short]
    by_cases long : 64 ≤ e.toInt
    · by_cases large : 1 < b.toInt.natAbs
      · rw [if_pos ⟨long, large⟩, ofInt?_pow_eq_none large (by omega)]
      · have even : e.toInt % 2 = 0 ↔ e.toInt.toNat % 2 = 0 := by omega
        rw [if_neg (fun both => large both.2), if_pos long, pow_of_small large (by omega)]
        simp only [even]
    · rw [if_neg (fun both => long both.1), if_neg long]
      rfl
  · rw [if_pos (by omega), if_neg short]

/-- A power of doubles is no integer. -/
theorem floatPower_ne_int (a b : Number) (n : Int64) : floatPower a b ≠ .ok (.int n) := by
  unfold floatPower
  dsimp only
  split
  · nofun
  split <;> nofun

/-- When a power is an integer: if the exponent has up to 32 bits and the exact power fits, which
then is the result. -/
theorem pow_int_iff : pow (.int b) (.int e) = .ok (.int n) ↔
    (0 ≤ e.toInt ∧ e.toInt < UInt32.size) ∧ n.toInt = b.toInt ^ e.toInt.toNat := by
  have exact : pow (.int b) (.int e) = .ok (.int n) ↔ power? b e = some n := by
    rw [pow]
    cases power? b e with
    | some r => simp only [Except.ok.injEq, int.injEq, Option.some.injEq]
    | none => simp only [floatPower_ne_int, reduceCtorEq]
  rw [exact, power?_eq, Option.ite_none_right_eq_some, ofInt?_eq_some]

/-- The exponent has too many bits, though the power is a unit. -/
example : power? (-1) 9007199254740993 = none := by decide

/-! ### Remainders -/

/-- What is left of `a` when multiples of `b` are taken away: less than `b`, and on the side of
`b`. -/
structure IsRemainder (a b r : Int) : Prop where
  multiple : b ∣ a - r
  sign : r = 0 ∨ r.sign = b.sign
  less : r.natAbs < b.natAbs

/-- Rounding quotients down leaves the only remainder that there is. -/
theorem isRemainder_iff {a b r : Int} (nonzero : b ≠ 0) : IsRemainder a b r ↔ a.fmod b = r := by
  rcases Int.lt_or_gt_of_ne nonzero with neg | pos
  · constructor
    · rintro ⟨⟨q, same⟩, sign, less⟩
      have below : r ≤ 0 := by
        rw [Int.sign_eq_neg_one_of_neg neg, Int.sign_eq_neg_one_iff_neg] at sign
        omega
      exact ((Int.fdiv_fmod_unique' (q := q) neg).mpr ⟨by omega, by omega, below⟩).2
    · rintro rfl
      have ⟨same, least, greatest⟩ := (Int.fdiv_fmod_unique' (a := a) neg).mp ⟨rfl, rfl⟩
      refine ⟨⟨a.fdiv b, by omega⟩, ?_, by omega⟩
      rw [Int.sign_eq_neg_one_of_neg neg, Int.sign_eq_neg_one_iff_neg]
      omega
  · constructor
    · rintro ⟨⟨q, same⟩, sign, less⟩
      have above : 0 ≤ r := by
        rw [Int.sign_eq_one_of_pos pos, Int.sign_eq_one_iff_pos] at sign
        omega
      exact ((Int.fdiv_fmod_unique (q := q) pos).mpr ⟨by omega, above, by omega⟩).2
    · rintro rfl
      have ⟨same, least, greatest⟩ := (Int.fdiv_fmod_unique (a := a) pos).mp ⟨rfl, rfl⟩
      refine ⟨⟨a.fdiv b, by omega⟩, ?_, by omega⟩
      rw [Int.sign_eq_one_of_pos pos, Int.sign_eq_one_iff_pos]
      omega

/-- Only one quotient of integers does not fit. -/
theorem ofInt?_tdiv_eq_none (nonzero : b ≠ 0) :
    ofInt? (a.toInt.tdiv b.toInt) = none ↔ a = Int64.minValue ∧ b = -1 := by
  constructor
  · intro large
    rw [ofInt?_eq_none] at large
    have least := a.le_toInt
    have greatest := a.toInt_lt
    have divisor : b.toInt ≠ 0 := fun same => nonzero (Int64.toInt_inj.mp same)
    have magnitude : (a.toInt.tdiv b.toInt).natAbs = a.toInt.natAbs / b.toInt.natAbs :=
      Int.natAbs_tdiv _ _
    have room : 2 ^ 63 * b.toInt.natAbs ≤ a.toInt.natAbs :=
      (Nat.le_div_iff_mul_le (by omega)).mp (by omega)
    obtain one | minusOne : b.toInt = 1 ∨ b.toInt = -1 := by omega
    · rw [one, Int.tdiv_one] at large
      omega
    · exact ⟨Int64.toInt_inj.mp (by rw [Int64.toInt_minValue]; omega), Int64.toInt_inj.mp minusOne⟩
  · rintro ⟨rfl, rfl⟩
    decide

theorem modulo?_eq (nonzero : b ≠ 0) : modulo? a b =
    if a = Int64.minValue ∧ b = -1 then none else ofInt? (a.toInt.fmod b.toInt) := by
  rw [modulo?]
  cases quotient : ofInt? (a.toInt.tdiv b.toInt) with
  | none => exact (if_pos ((ofInt?_tdiv_eq_none nonzero).mp quotient)).symm
  | some q =>
    refine (if_neg fun both => ?_).symm
    rw [(ofInt?_tdiv_eq_none nonzero).mpr both] at quotient
    cases quotient

/-- When a remainder is an integer: for each divisor but zero, unless the quotient does not fit. It
then is the exact one. -/
theorem rem_int_iff : rem (.int a) (.int b) = .ok (.int r) ↔
    b ≠ 0 ∧ ¬(a = Int64.minValue ∧ b = -1) ∧ IsRemainder a.toInt b.toInt r.toInt := by
  rw [rem, isZero_int]
  by_cases zero : b = 0
  · simp [zero]
  have divisor : b.toInt ≠ 0 := fun same => zero (Int64.toInt_inj.mp same)
  have exact : combine modulo? (fun x y => x - y * Double.floor (x / y)) (.int a) (.int b) = .int r ↔
      modulo? a b = some r := by
    rw [combine]
    cases modulo? a b with
    | some q => simp only [int.injEq, Option.some.injEq]
    | none => simp only [reduceCtorEq]
  rw [if_neg (by simpa using zero), Except.ok.injEq, exact, modulo?_eq zero, Option.ite_none_left_eq_some,
    ofInt?_eq_some, isRemainder_iff divisor, eq_comm (a := r.toInt)]
  simp only [ne_eq, zero, not_false_eq_true, true_and]

/-- The quotient that does not fit leaves nothing, but as a double. -/
example : rem (.int Int64.minValue) (.int (-1)) = .ok (.float 0.0) := by decide +kernel

end BasicScript.Number
