import LinearSystem.Proofs.Binary64.Overflow
import LinearSystem.Proofs.Decimal.ReadBack
/-!
Which decimals are too large.

Only in the unit of the largest finite numbers does it depend on the rounding whether the result is
finite, and there it is finite below half a unit past the largest of them
(`Binary64.nearestToRatio_lt_iff`). Exponents that are clamped are far away from that, so the same
holds of every decimal (`Decimal.nearest_lt_iff`).
-/
namespace LinearSystem

namespace Binary64

variable {n d : Nat}

/-! ### Rounding to a whole number -/

theorem le_roundHalfEven (n d : Nat) :
    n / d ≤ roundHalfEven n d ∧ roundHalfEven n d ≤ n / d + 1 := by
  unfold roundHalfEven
  split <;> omega

/-- An even number is reached from a half below it on. -/
theorem roundHalfEven_lt_iff {bound : Nat} (denominator : 0 < d) (even : bound % 2 = 0) :
    roundHalfEven n d < bound ↔ 2 * n + d < 2 * bound * d := by
  have parts := Nat.div_add_mod' n d
  have remainder := Nat.mod_lt n denominator
  have between := le_roundHalfEven n d
  rcases Nat.lt_trichotomy (n / d + 1) bound with small | same | large
  · have enough : (n / d + 2) * d ≤ bound * d := Nat.mul_le_mul_right d small
    rw [add_mul] at enough
    refine iff_of_true (by omega) ?_
    rw [mul_assoc]
    omega
  · -- The number below is odd, so a half above it is rounded up.
    have odd : n / d % 2 = 1 := by omega
    have whole : bound * d = n / d * d + d := by rw [← same, Nat.succ_mul]
    have half : roundHalfEven n d < bound ↔ 2 * (n % d) < d := by
      unfold roundHalfEven
      split <;> omega
    rw [half, mul_assoc, whole]
    omega
  · have enough : bound * d ≤ n / d * d := Nat.mul_le_mul_right d (by omega)
    refine iff_of_false (by omega) ?_
    rw [mul_assoc]
    omega

/-! ### Significands -/

section

variable {exponent : Int} (denominator : 0 < d)

include denominator

theorem divTwoPow_pos (exponent : Int) : 0 < (divTwoPow (n, d) exponent).2 := by
  rw [divTwoPow_eq]
  positivity

theorem roundHalfEven_le (below : (n : ℚ) / d < 2 ^ (53 + exponent)) :
    roundHalfEven (divTwoPow (n, d) exponent).1 (divTwoPow (n, d) exponent).2 ≤ 2 ^ 53 := by
  have between := le_roundHalfEven (divTwoPow (n, d) exponent).1 (divTwoPow (n, d) exponent).2
  have digits := (lt_shiftLeft_iff denominator exponent).mpr below
  rw [Nat.shiftLeft_eq] at digits
  have quotient := Nat.div_lt_of_lt_mul digits
  omega

theorem le_roundHalfEven_of_le (full : (2 : ℚ) ^ (52 + exponent) ≤ (n : ℚ) / d) :
    2 ^ 52 ≤ roundHalfEven (divTwoPow (n, d) exponent).1 (divTwoPow (n, d) exponent).2 := by
  have digits : 2 ^ 52 * (divTwoPow (n, d) exponent).2 ≤ (divTwoPow (n, d) exponent).1 := by
    rw [← not_lt, divTwoPow_lt_iff denominator, not_lt, Nat.cast_pow, Nat.cast_ofNat,
      ← zpow_natCast, ← zpow_add₀ two_ne_zero]
    exact full
  have quotient := (Nat.le_div_iff_mul_le (divTwoPow_pos denominator exponent)).mpr digits
  exact quotient.trans (le_roundHalfEven _ _).1

/-- A significand is rounded to the next power of two from half a unit below it on. -/
theorem roundHalfEven_lt_two_pow_iff :
    roundHalfEven (divTwoPow (n, d) exponent).1 (divTwoPow (n, d) exponent).2 < 2 ^ 53 ↔
      2 * ((n : ℚ) / d) < (2 ^ 54 - 1) * 2 ^ exponent := by
  have twice := @divTwoPow_lt_iff (2 * n) d denominator exponent (2 ^ 54 - 1)
  have doubled : divTwoPow (2 * n, d) exponent =
      (2 * (divTwoPow (n, d) exponent).1, (divTwoPow (n, d) exponent).2) := by
    simp only [divTwoPow_eq, mul_assoc]
  have odd : ((2 ^ 54 - 1 : Nat) : ℚ) = 2 ^ 54 - 1 := by norm_num
  rw [doubled, odd, Nat.cast_mul, Nat.cast_ofNat, mul_div_assoc] at twice
  rw [← twice, roundHalfEven_lt_iff (divTwoPow_pos denominator exponent) (by norm_num)]
  dsimp only
  omega

end

/-- A ratio is rounded to a finite number exactly if it is less than half a unit past the largest
one. -/
theorem nearestToRatio_lt_iff (denominator : 0 < d) :
    nearestToRatio n d < infinityBits ↔ (n : ℚ) / d < overflow := by
  by_cases numerator : n = 0
  · rw [nearestToRatio, if_pos numerator, numerator, Nat.cast_zero, zero_div]
    exact iff_of_true (by decide) overflow_pos
  · obtain ⟨least, below, full⟩ := unitExponent_spec numerator denominator
    have upper := roundHalfEven_le denominator below
    have lower := full.imp_right (le_roundHalfEven_of_le denominator)
    have carries := @roundHalfEven_lt_two_pow_iff n d (unitExponent n d) denominator
    simp only [nearestToRatio, numerator, if_false, leastExponent_eq, binade_eq, infinityBits_eq]
    generalize unitExponent n d = exponent at *
    generalize roundHalfEven _ _ = significand at *
    rcases Int.lt_trichotomy exponent 971 with low | rfl | high
    · have small : (n : ℚ) / d < overflow := by
        refine below.trans_le (le_trans ?_ two_pow_le_overflow)
        exact zpow_le_zpow_right₀ one_le_two (by omega)
      refine iff_of_true ?_ small
      omega
    · -- In the unit of the largest finite numbers the significand decides.
      have threshold : (n : ℚ) / d < overflow ↔
          2 * ((n : ℚ) / d) < (2 ^ 54 - 1) * 2 ^ (971 : Int) := by
        have next : (2 : ℚ) ^ (971 : Int) = 2 * 2 ^ 970 :=
          (zpow_one_add₀ two_ne_zero 970).trans (congrArg (2 * ·) (zpow_ofNat 2 970))
        rw [next, mul_left_comm, ← overflow, mul_lt_mul_iff_of_pos_left two_pos]
      rw [threshold, ← carries]
      omega
    · have some := lower.resolve_left (by omega)
      have large : overflow ≤ (n : ℚ) / d := by
        refine overflow_le_two_pow.trans (le_trans ?_ (full.resolve_left (by omega)))
        exact zpow_le_zpow_right₀ one_le_two (by omega)
      refine iff_of_false ?_ (not_lt.mpr large)
      omega

/-- Infinity is the largest that is rounded to. -/
theorem nearest_le (decimal : Decimal) : nearest decimal ≤ infinityBits := by
  unfold nearest nearestToRatio
  dsimp only
  split
  · exact Nat.zero_le _
  · exact min_le_right _ _

end Binary64

namespace Decimal

open Binary64

/-! ### Decimals -/

theorem overflow_le_ten_pow : overflow ≤ (10 : ℚ) ^ (400 : Int) := by
  have powers : 2 ^ 1024 ≤ 10 ^ 400 := by decide +kernel
  calc overflow
    _ ≤ 2 ^ (1024 : Int) := overflow_le_two_pow
    _ ≤ 10 ^ (400 : Int) := by
      rw [zpow_ofNat, zpow_ofNat]
      exact_mod_cast powers

/-- An exponent that is clamped at four hundred leaves a decimal too large. -/
theorem overflow_le_of_large {mantissa : Nat} {exponent : Int} (nonzero : mantissa ≠ 0)
    (large : 400 ≤ exponent) : overflow ≤ (mantissa : ℚ) * 10 ^ exponent := by
  have one : (1 : ℚ) ≤ mantissa := Nat.one_le_cast.mpr (Nat.pos_of_ne_zero nonzero)
  calc overflow
    _ ≤ 10 ^ (400 : Int) := overflow_le_ten_pow
    _ ≤ 10 ^ exponent := zpow_le_zpow_right₀ (by norm_num) large
    _ ≤ mantissa * 10 ^ exponent := le_mul_of_one_le_left (by positivity) one

/-- An exponent that is clamped from below leaves a decimal less than one. -/
theorem lt_overflow_of_small {mantissa : Nat} {exponent : Int}
    (small : exponent ≤ -(400 + (mantissa.log2 : Int))) :
    (mantissa : ℚ) * 10 ^ exponent < overflow := by
  have digits : (mantissa : ℚ) < 2 ^ ((mantissa.log2 : Int) + 1) := by
    exact_mod_cast @Nat.lt_log2_self mantissa
  calc (mantissa : ℚ) * 10 ^ exponent
    _ < 2 ^ ((mantissa.log2 : Int) + 1) * 10 ^ exponent := by gcongr
    _ ≤ 10 ^ ((mantissa.log2 : Int) + 1) * 10 ^ exponent := by
      gcongr
      exact zpow_le_zpow_left₀ (by omega) (by norm_num) (by norm_num)
    _ = 10 ^ ((mantissa.log2 : Int) + 1 + exponent) := (zpow_add₀ (by norm_num) _ _).symm
    _ ≤ 1 := zpow_le_one_of_nonpos₀ (by norm_num) (by omega)
    _ ≤ 2 ^ (1023 : Int) := one_le_zpow₀ one_le_two (by norm_num)
    _ ≤ overflow := two_pow_le_overflow

/-- A decimal is rounded to a finite number exactly if it is less than half a unit past the largest
one. -/
theorem nearest_lt_iff (decimal : Decimal) :
    nearest decimal < infinityBits ↔ (decimal.mantissa * 10 ^ decimal.exponent : ℚ) < overflow := by
  have denominator : 0 < (clampExponent decimal).ratio.2 := by
    rw [ratio_eq]
    positivity
  by_cases zero : decimal.mantissa = 0
  · rw [nearest_of_mantissa_eq_zero zero, zero, Nat.cast_zero, zero_mul]
    exact iff_of_true (by decide) overflow_pos
  · have clamped : nearest decimal < infinityBits ↔
        (decimal.mantissa * 10 ^ (clampExponent decimal).exponent : ℚ) < overflow := by
      rw [nearest, nearestToRatio_lt_iff denominator, ratio_value]
      rfl
    rw [clamped, clampExponent]
    dsimp only
    rcases lt_or_ge 400 decimal.exponent with large | notLarge
    · exact iff_of_false (not_lt.mpr (overflow_le_of_large zero (by omega)))
        (not_lt.mpr (overflow_le_of_large zero large.le))
    · rcases lt_or_ge decimal.exponent (-(400 + (decimal.mantissa.log2 : Int))) with
        small | notSmall
      · exact iff_of_true (lt_overflow_of_small (by omega)) (lt_overflow_of_small small.le)
      · rw [min_eq_left notLarge, max_eq_right notSmall]

end Decimal

end LinearSystem
