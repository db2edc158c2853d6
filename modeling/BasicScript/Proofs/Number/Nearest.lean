import Mathlib

/-! Integers that are doubles. A double has 53 bits: of a longer integer the multiple of its last
bit that is left comes nearest, and of two such multiples the one with an even quotient. -/

set_option autoImplicit false

namespace BasicScript.Double

theorem log2_mul_two_pow {n : Nat} (pos : n ≠ 0) (k : Nat) : (n * 2 ^ k).log2 = n.log2 + k := by
  have ⟨least, greatest⟩ := (Nat.log2_eq_iff pos).mp rfl
  rw [Nat.log2_eq_iff (Nat.mul_ne_zero pos (Nat.two_pow_pos k).ne'), Nat.pow_add,
    Nat.add_right_comm, Nat.pow_add _ _ k]
  exact ⟨Nat.mul_le_mul_right _ least, Nat.mul_lt_mul_of_pos_right greatest (Nat.two_pow_pos k)⟩

/-! ### Quotients -/

/-- The quotient rounded to the nearest integer, and a half to the even one. -/
def roundDiv (a d : Nat) : Nat :=
  if 2 * (a % d) < d then a / d
  else if d < 2 * (a % d) then a / d + 1
  else a / d + a / d % 2

theorem roundDiv_eq_or (a d : Nat) :
    roundDiv a d = a / d ∧ 2 * (a % d) ≤ d ∨ roundDiv a d = a / d + 1 ∧ d ≤ 2 * (a % d) := by
  unfold roundDiv
  split
  · exact .inl ⟨rfl, by omega⟩
  · split <;> omega

theorem roundDiv_mul_cancel (q : Nat) {d : Nat} (pos : 0 < d) : roundDiv (q * d) d = q := by
  rw [roundDiv, Nat.mul_mod_left, if_pos pos, Nat.mul_div_cancel _ pos]

theorem roundDiv_mul_mul (a d : Nat) {c : Nat} (pos : 0 < c) :
    roundDiv (a * c) (d * c) = roundDiv a d := by
  have scaled : 2 * (a % d * c) = 2 * (a % d) * c := (Nat.mul_assoc ..).symm
  simp only [roundDiv, Nat.mul_div_mul_right _ _ pos, Nat.mul_mod_mul_right, scaled,
    Nat.mul_lt_mul_right pos]

/-- No multiple of `d` lies nearer. -/
theorem roundDiv_nearest (a : Nat) {d : Nat} (pos : 0 < d) (k : Int) :
    (a - roundDiv a d * d : Int).natAbs ≤ (a - k * d : Int).natAbs := by
  have parts : (a : Int) = (a / d : Nat) * d + (a % d : Nat) :=
    mod_cast (Nat.div_add_mod' a d).symm
  have short : a % d < d := Nat.mod_lt a pos
  -- a multiple is at most the one below `a`, or at least the one above it
  have sides : k * d ≤ (a / d : Nat) * d ∨ (a / d : Nat) * d + d ≤ k * d := by
    rcases lt_or_ge ((a / d : Nat) : Int) k with above | below
    · have := Int.mul_le_mul_of_nonneg_right above (Int.natCast_nonneg d)
      rw [Int.add_mul, Int.one_mul] at this
      exact .inr this
    · exact .inl (Int.mul_le_mul_of_nonneg_right below (Int.natCast_nonneg d))
  rcases roundDiv_eq_or a d with ⟨same, low⟩ | ⟨same, high⟩ <;> rw [same]
  · omega
  · rw [Nat.cast_add, Nat.cast_one, Int.add_mul, Int.one_mul]
    omega

/-! ### Integers -/

def unit (n : Nat) : Nat := 2 ^ (n.log2 - 52)

theorem unit_pos (n : Nat) : 0 < unit n := Nat.two_pow_pos _

def nearestNat (n : Nat) : Nat := roundDiv n (unit n) * unit n

theorem nearestNat_of_dvd {n : Nat} (fits : unit n ∣ n) : nearestNat n = n := by
  have quotient := roundDiv_mul_cancel (n / unit n) (unit_pos n)
  rw [Nat.div_mul_cancel fits] at quotient
  rw [nearestNat, quotient, Nat.div_mul_cancel fits]

/-- What has no more than 53 bits in front of its zeros is a double. -/
theorem nearestNat_of_short {m : Nat} (short : m < 2 ^ 53) (k : Nat) :
    nearestNat (m * 2 ^ k) = m * 2 ^ k := by
  rcases Nat.eq_zero_or_pos m with rfl | pos
  · rw [Nat.zero_mul]
    rfl
  · have bits : m.log2 < 53 := (Nat.log2_lt pos.ne').mpr short
    apply nearestNat_of_dvd
    rw [unit, log2_mul_two_pow pos.ne']
    exact Dvd.dvd.mul_left (Nat.pow_dvd_pow 2 (by omega)) m

theorem nearestNat_of_le {n : Nat} (small : n ≤ 2 ^ 53) : nearestNat n = n := by
  rcases Nat.lt_or_eq_of_le small with short | rfl
  · simpa using nearestNat_of_short short 0
  · exact nearestNat_of_short (m := 2 ^ 52) (by decide) 1

/-- The first 53 bits, and what the others round up to. -/
theorem roundDiv_unit_bounds {n : Nat} (long : 52 ≤ n.log2) :
    2 ^ 52 ≤ roundDiv n (unit n) ∧ roundDiv n (unit n) ≤ 2 ^ 53 := by
  have pos : n ≠ 0 := by
    rintro rfl
    simp at long
  have ⟨least, greatest⟩ := (Nat.log2_eq_iff pos).mp rfl
  have above : 2 ^ 52 ≤ n / unit n := by
    rw [unit, Nat.le_div_iff_mul_le (Nat.two_pow_pos _), ← Nat.pow_add, Nat.add_sub_cancel' long]
    exact least
  have below : n / unit n < 2 ^ 53 := by
    rw [unit, Nat.div_lt_iff_lt_mul (Nat.two_pow_pos _), ← Nat.pow_add,
      show 53 + (n.log2 - 52) = n.log2 + 1 by omega]
    exact greatest
  rcases roundDiv_eq_or n (unit n) with ⟨same, -⟩ | ⟨same, -⟩ <;> omega

/-- Zeros behind an integer stay where they are. -/
theorem nearestNat_mul_two_pow {n : Nat} (pos : n ≠ 0) (k : Nat) :
    nearestNat (n * 2 ^ k) = nearestNat n * 2 ^ k := by
  rcases Nat.lt_or_ge n (2 ^ 53) with short | long
  · rw [nearestNat_of_short short, nearestNat_of_le (Nat.le_of_lt short)]
  · have bits : 52 < n.log2 := (Nat.le_log2 pos).mpr long
    have scaled : unit (n * 2 ^ k) = unit n * 2 ^ k := by
      rw [unit, log2_mul_two_pow pos, unit, ← Nat.pow_add]
      congr 1
      omega
    rw [nearestNat, scaled, roundDiv_mul_mul _ _ (Nat.two_pow_pos k), ← Nat.mul_assoc, nearestNat]

theorem exists_short (n : Nat) : ∃ m k, m < 2 ^ 53 ∧ nearestNat n = m * 2 ^ k := by
  rcases Nat.lt_or_ge n.log2 52 with few | many
  · have short : n < 2 ^ 53 := Nat.lt_log2_self.trans_le (Nat.pow_le_pow_right (by decide) (by omega))
    exact ⟨n, 0, short, by rw [nearestNat_of_le (Nat.le_of_lt short), Nat.pow_zero, Nat.mul_one]⟩
  · have ⟨_, atMost⟩ := roundDiv_unit_bounds many
    rcases Nat.lt_or_eq_of_le atMost with short | carry
    · exact ⟨_, _, short, rfl⟩
    -- rounding up has carried into one more bit, and left only zeros behind it
    · refine ⟨2 ^ 52, n.log2 - 52 + 1, by decide, ?_⟩
      rw [nearestNat, carry, unit, Nat.pow_succ]
      omega

theorem nearestNat_nearestNat (n : Nat) : nearestNat (nearestNat n) = nearestNat n := by
  obtain ⟨m, k, short, same⟩ := exists_short n
  rw [same, nearestNat_of_short short]

theorem nearestNat_le_two_pow {n k : Nat} (fits : n ≤ 2 ^ k) : nearestNat n ≤ 2 ^ k := by
  rcases Nat.lt_or_ge n.log2 52 with few | many
  · rwa [nearestNat_of_le]
    exact (Nat.lt_log2_self.trans_le (Nat.pow_le_pow_right (by decide) (by omega))).le
  · rcases Nat.lt_or_eq_of_le fits with below | rfl
    · have pos : n ≠ 0 := by
        rintro rfl
        simp at many
      have bits : n.log2 < k := (Nat.log2_lt pos).mpr below
      calc nearestNat n ≤ 2 ^ 53 * unit n := Nat.mul_le_mul_right _ (roundDiv_unit_bounds many).2
        _ = 2 ^ (n.log2 + 1) := by rw [unit, ← Nat.pow_add]; congr 1; omega
        _ ≤ 2 ^ k := Nat.pow_le_pow_right (by decide) bits
    · simpa using (nearestNat_of_short (m := 1) (by decide) k).le

def nearest (n : Int) : Int := n.sign * nearestNat n.natAbs

theorem nearest_natCast (n : Nat) : nearest n = nearestNat n := by
  rcases Nat.eq_zero_or_pos n with rfl | pos
  · rfl
  · rw [nearest, Int.sign_eq_one_of_pos (by omega), Int.one_mul, Int.natAbs_natCast]

theorem nearest_neg (n : Int) : nearest (-n) = -nearest n := by
  rw [nearest, nearest, Int.sign_neg, Int.natAbs_neg, Int.neg_mul]

theorem nearest_of_le {n : Int} (small : n.natAbs ≤ 2 ^ 53) : nearest n = n := by
  rw [nearest, nearestNat_of_le small, Int.sign_mul_natAbs]

theorem natAbs_nearest (n : Int) : (nearest n).natAbs = nearestNat n.natAbs := by
  rcases Int.eq_nat_or_neg n with ⟨n, rfl | rfl⟩
  · rw [nearest_natCast, Int.natAbs_natCast, Int.natAbs_natCast]
  · rw [nearest_neg, Int.natAbs_neg, nearest_natCast, Int.natAbs_natCast, Int.natAbs_neg,
      Int.natAbs_natCast]

theorem nearest_nearest (n : Int) : nearest (nearest n) = nearest n := by
  rcases Int.eq_nat_or_neg n with ⟨n, rfl | rfl⟩
  · rw [nearest_natCast, nearest_natCast, nearestNat_nearestNat]
  · rw [nearest_neg, nearest_neg, nearest_natCast, nearest_natCast, nearestNat_nearestNat]

end BasicScript.Double
