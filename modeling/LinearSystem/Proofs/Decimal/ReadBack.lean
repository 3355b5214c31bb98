import LinearSystem.Decimal.Shortest
import LinearSystem.Proofs.Binary64.Pattern
/-!
Decimals that read back.

A ratio is rounded in the largest unit that leaves it fifty-three binary digits, or in the smallest
unit (`unitExponent_spec`), so to round a ratio that is a floating-point number is to find this
number (`nearestToRatio_exact`). So the exact decimal of a pattern reads back to it, and so does the
shortest one, whether the search for it succeeds or not (`nearest_shortest`).
-/
namespace LinearSystem

/-! ### Ratios -/

/-- A power of a whole exponent is a ratio of two powers of natural ones. -/
theorem pow_toNat {base : ℚ} (nonzero : base ≠ 0) (exponent : Int) :
    base ^ exponent.toNat = base ^ exponent * base ^ (-exponent).toNat := by
  rw [← zpow_natCast, ← zpow_natCast, ← zpow_add₀ nonzero]
  congr 1
  omega

namespace Binary64

theorem divTwoPow_eq (n d : Nat) (exponent : Int) :
    divTwoPow (n, d) exponent = (n * 2 ^ (-exponent).toNat, d * 2 ^ exponent.toNat) := by
  rw [divTwoPow, Nat.shiftLeft_eq, Nat.shiftLeft_eq]

/-- The ratio is below a bound exactly if the scaled one is below as many units. -/
theorem divTwoPow_lt_iff {n d : Nat} (denominator : 0 < d) (exponent : Int) (bound : Nat) :
    (divTwoPow (n, d) exponent).1 < bound * (divTwoPow (n, d) exponent).2 ↔
      (n : ℚ) / d < bound * 2 ^ exponent := by
  have below : (0 : ℚ) < d := Nat.cast_pos.mpr denominator
  have power : (0 : ℚ) < 2 ^ (-exponent).toNat := by positivity
  have right : (bound : ℚ) * (d * 2 ^ exponent.toNat) =
      bound * 2 ^ exponent * d * 2 ^ (-exponent).toNat := by
    rw [pow_toNat two_ne_zero exponent]
    ring
  rw [divTwoPow_eq, div_lt_iff₀ below, ← @Nat.cast_lt ℚ]
  simp only [Nat.cast_mul, Nat.cast_pow, Nat.cast_ofNat]
  rw [right, mul_lt_mul_iff_of_pos_right power]

theorem lt_shiftLeft_iff {n d : Nat} (denominator : 0 < d) (exponent : Int) :
    (divTwoPow (n, d) exponent).1 < (divTwoPow (n, d) exponent).2 <<< 53 ↔
      (n : ℚ) / d < 2 ^ (53 + exponent) := by
  rw [Nat.shiftLeft_eq, mul_comm _ (2 ^ 53), divTwoPow_lt_iff denominator, Nat.cast_pow,
    Nat.cast_ofNat, zpow_add₀ two_ne_zero]
  rfl

/-- Binary logarithms bound a ratio within a factor of four. -/
theorem ratio_bounds {n d : Nat} (numerator : n ≠ 0) (denominator : d ≠ 0) :
    (2 : ℚ) ^ ((n.log2 : Int) - d.log2 - 1) < (n : ℚ) / d ∧
      (n : ℚ) / d < 2 ^ ((n.log2 : Int) - d.log2 + 1) := by
  have below : (0 : ℚ) < d := Nat.cast_pos.mpr (Nat.pos_of_ne_zero denominator)
  have lower : (2 : ℚ) ^ (n.log2 : Int) ≤ n := by exact_mod_cast Nat.log2_self_le numerator
  have upper : (n : ℚ) < 2 ^ ((n.log2 : Int) + 1) := by exact_mod_cast @Nat.lt_log2_self n
  have lower' : (2 : ℚ) ^ (d.log2 : Int) ≤ d := by exact_mod_cast Nat.log2_self_le denominator
  have upper' : (d : ℚ) < 2 ^ ((d.log2 : Int) + 1) := by exact_mod_cast @Nat.lt_log2_self d
  constructor
  · rw [lt_div_iff₀ below]
    calc (2 : ℚ) ^ ((n.log2 : Int) - d.log2 - 1) * d
      _ < 2 ^ ((n.log2 : Int) - d.log2 - 1) * 2 ^ ((d.log2 : Int) + 1) := by gcongr
      _ = 2 ^ (n.log2 : Int) := by
        rw [← zpow_add₀ two_ne_zero]
        congr 1
        omega
      _ ≤ n := lower
  · rw [div_lt_iff₀ below]
    calc (n : ℚ)
      _ < 2 ^ ((n.log2 : Int) + 1) := upper
      _ = 2 ^ ((n.log2 : Int) - d.log2 + 1) * 2 ^ (d.log2 : Int) := by
        rw [← zpow_add₀ two_ne_zero]
        congr 1
        omega
      _ ≤ 2 ^ ((n.log2 : Int) - d.log2 + 1) * d := by gcongr

/-- The unit that a ratio is rounded in leaves it at most fifty-three binary digits, and no fewer
unless it is the smallest one. -/
theorem unitExponent_spec {n d : Nat} (numerator : n ≠ 0) (denominator : 0 < d) :
    -1074 ≤ unitExponent n d ∧ (n : ℚ) / d < 2 ^ (53 + unitExponent n d) ∧
      (unitExponent n d = -1074 ∨ (2 : ℚ) ^ (52 + unitExponent n d) ≤ (n : ℚ) / d) := by
  obtain ⟨lower, upper⟩ := ratio_bounds numerator denominator.ne'
  unfold unitExponent
  dsimp only
  rw [leastExponent_eq]
  have atLeast : (-1074 : Int) ≤ max ((n.log2 : Int) - d.log2 - 53) (-1074) := le_max_right _ _
  have atMost : (n.log2 : Int) - d.log2 - 53 ≤ max ((n.log2 : Int) - d.log2 - 53) (-1074) :=
    le_max_left _ _
  have attained : max ((n.log2 : Int) - d.log2 - 53) (-1074) = (n.log2 : Int) - d.log2 - 53 ∨
      max ((n.log2 : Int) - d.log2 - 53) (-1074) = -1074 := max_choice _ _
  generalize max ((n.log2 : Int) - d.log2 - 53) (-1074) = estimate at *
  split
  next short =>
    rw [lt_shiftLeft_iff denominator] at short
    refine ⟨atLeast, short, attained.symm.imp_right fun same => ?_⟩
    have digits : (52 : Int) + estimate = n.log2 - d.log2 - 1 := by omega
    rw [digits]
    exact lower.le
  next long =>
    rw [lt_shiftLeft_iff denominator, not_lt] at long
    have digits : (53 : Int) + estimate = 52 + (estimate + 1) := by omega
    rw [digits] at long
    refine ⟨by omega, upper.trans_le ?_, .inr long⟩
    exact zpow_le_zpow_right₀ one_le_two (by omega)

/-! ### Rounding a floating-point number -/

section Exact

variable {n d mantissa : Nat} {exponent : Int} (denominator : 0 < d) (positive : 0 < mantissa)
  (canonical : IsCanonical mantissa exponent) (value : (n : ℚ) / d = mantissa * 2 ^ exponent)

include denominator positive canonical value

omit denominator canonical in
theorem numerator_ne_zero : n ≠ 0 := by
  rintro rfl
  have nothing : (mantissa : ℚ) * 2 ^ exponent = 0 := by simpa using value.symm
  have something : (0 : ℚ) < mantissa * 2 ^ exponent := by positivity
  exact something.ne' nothing

omit denominator positive in
theorem value_lt : (n : ℚ) / d < 2 ^ (53 + exponent) := by
  have below := canonical.below
  rw [value, zpow_add₀ two_ne_zero]
  gcongr
  exact_mod_cast below

omit denominator positive canonical in
theorem le_value (high : 2 ^ 52 ≤ mantissa) : (2 : ℚ) ^ (52 + exponent) ≤ (n : ℚ) / d := by
  rw [value, zpow_add₀ two_ne_zero]
  gcongr
  exact_mod_cast high

/-- The unit of a floating-point number is that of its significand. -/
theorem unitExponent_exact : unitExponent n d = exponent := by
  obtain ⟨least, below, full⟩ := unitExponent_spec (numerator_ne_zero positive value) denominator
  have under := value_lt canonical value
  obtain ⟨least', -, full'⟩ := canonical
  -- A unit with all fifty-three digits before the point is no larger than any other.
  have atMost : unitExponent n d ≤ exponent := by
    rcases full with smallest | digits
    · exact smallest ▸ least'
    · have powers := (zpow_lt_zpow_iff_right₀ one_lt_two).mp (digits.trans_lt under)
      omega
  have atLeast : exponent ≤ unitExponent n d := by
    rcases full' with digits | smallest
    · have between := (le_value value digits).trans_lt below
      have powers := (zpow_lt_zpow_iff_right₀ one_lt_two).mp between
      omega
    · exact smallest ▸ least
  exact le_antisymm atMost atLeast

/-- To round a floating-point number is to find it. -/
theorem nearestToRatio_exact :
    nearestToRatio n d =
      min ((exponent - leastExponent).toNat * binade + mantissa) infinityBits := by
  have unit := unitExponent_exact denominator positive canonical value
  have numerator := numerator_ne_zero positive value
  have below : (0 : ℚ) < d := Nat.cast_pos.mpr denominator
  have scaled : n * 2 ^ (-exponent).toNat = mantissa * (d * 2 ^ exponent.toNat) := by
    rw [div_eq_iff below.ne'] at value
    rw [← @Nat.cast_inj ℚ]
    push_cast
    rw [pow_toNat two_ne_zero exponent, value]
    ring
  have units : 0 < d * 2 ^ exponent.toNat := by positivity
  have rounded : roundHalfEven (mantissa * (d * 2 ^ exponent.toNat)) (d * 2 ^ exponent.toNat) =
      mantissa := by
    rw [roundHalfEven, Nat.mul_mod_left, Nat.mul_div_cancel _ units, if_pos (.inl units)]
  simp only [nearestToRatio, numerator, if_false, unit, divTwoPow_eq, scaled, rounded]

end Exact

end Binary64

namespace Decimal

open Binary64

/-! ### The exact decimal -/

theorem ratio_eq (decimal : Decimal) :
    decimal.ratio = (decimal.mantissa * 10 ^ decimal.exponent.toNat,
      10 ^ (-decimal.exponent).toNat) := by
  rw [ratio, divTenPow, Int.neg_neg, Nat.one_mul]
  rfl

theorem ratio_value (decimal : Decimal) :
    (decimal.ratio.1 : ℚ) / decimal.ratio.2 = decimal.mantissa * 10 ^ decimal.exponent := by
  have power : (0 : ℚ) < 10 ^ (-decimal.exponent).toNat := by positivity
  rw [ratio_eq]
  push_cast
  rw [pow_toNat (by norm_num) decimal.exponent, ← mul_assoc, mul_div_cancel_right₀ _ power.ne']

theorem nearest_of_clampExponent {decimal : Decimal}
    (low : -(400 + (decimal.mantissa.log2 : Int)) ≤ decimal.exponent)
    (high : decimal.exponent ≤ 400) :
    nearest decimal = nearestToRatio decimal.ratio.1 decimal.ratio.2 := by
  have same : clampExponent decimal = decimal := by
    rw [clampExponent, min_eq_left high, max_eq_right low]
  rw [nearest, same]

theorem le_log2_mul_five_pow {n : Nat} (positive : 0 < n) (count : Nat) :
    2 * count ≤ (n * 5 ^ count).log2 := by
  have product : n * 5 ^ count ≠ 0 := by positivity
  rw [Nat.le_log2 product]
  calc 2 ^ (2 * count)
    _ = 4 ^ count := pow_mul 2 2 count
    _ ≤ 5 ^ count := Nat.pow_le_pow_left (by norm_num) count
    _ ≤ n * 5 ^ count := Nat.le_mul_of_pos_left _ positive

/-- The exact decimal has the value of the pattern, and an exponent that is not clamped. -/
theorem exact_value {bits : Nat} (nonzero : bits ≠ 0) :
    ((exact bits).mantissa * 10 ^ (exact bits).exponent : ℚ) =
        significand bits * 2 ^ Binary64.exponent bits ∧
      -(400 + ((exact bits).mantissa.log2 : Int)) ≤ (exact bits).exponent ∧
      (exact bits).exponent ≤ 0 := by
  have power := pow_toNat (two_ne_zero' ℚ) (Binary64.exponent bits)
  by_cases whole : 0 ≤ Binary64.exponent bits
  · have none : (-Binary64.exponent bits).toNat = 0 := by omega
    rw [none, pow_zero, mul_one] at power
    rw [exact, if_pos whole]
    refine ⟨?_, by dsimp only; omega, le_rfl⟩
    simp [Nat.shiftLeft_eq, power]
  · have enough := le_log2_mul_five_pow (significand_pos nonzero) (-Binary64.exponent bits).toNat
    have count : ((-Binary64.exponent bits).toNat : Int) = -Binary64.exponent bits := by omega
    rw [exact, if_neg whole]
    refine ⟨?_, ?_, by dsimp only; omega⟩
    · have five : (5 : ℚ) ^ (-Binary64.exponent bits).toNat * 5 ^ Binary64.exponent bits = 1 := by
        rw [← zpow_natCast, count, ← zpow_add₀ (by norm_num), neg_add_cancel, zpow_zero]
      have ten : (10 : ℚ) ^ Binary64.exponent bits =
          2 ^ Binary64.exponent bits * 5 ^ Binary64.exponent bits := by
        rw [← mul_zpow]
        norm_num
      dsimp only
      change ((significand bits * 5 ^ (-Binary64.exponent bits).toNat : Nat) : ℚ) * _ = _
      rw [ten, Nat.cast_mul, Nat.cast_pow, Nat.cast_ofNat, ← mul_one (_ * 2 ^ _), ← five]
      ring
    · change 2 * _ ≤ (significand bits * Nat.pow 5 _).log2 at enough
      dsimp only
      omega

/-- The exact decimal of a finite pattern reads back to it. -/
theorem nearest_exact {bits : Nat} (nonzero : bits ≠ 0) (finite : bits < infinityBits) :
    nearest (exact bits) = bits := by
  obtain ⟨value, low, high⟩ := exact_value nonzero
  have denominator : 0 < (exact bits).ratio.2 := by
    rw [ratio_eq]
    positivity
  rw [← ratio_value] at value
  rw [nearest_of_clampExponent low (by omega),
    nearestToRatio_exact denominator (significand_pos nonzero) (isCanonical_of_bits bits) value,
    bits_eq]
  exact min_eq_left finite.le

/-! ### The shortest decimal -/

/-- The shortest decimal of a finite pattern reads back to it. -/
theorem nearest_shortest (tie : Tie) {bits : Nat} (finite : bits < infinityBits) :
    nearest (shortest tie bits) = bits := by
  unfold shortest
  split
  next zero =>
    subst zero
    decide
  next nonzero =>
    dsimp only
    cases found : onGrids? tie bits 18
        (coarsestExponent (Binary64.ratio bits).1 (Binary64.ratio bits).2) with
    | some decimal => exact nearest_of_onGrids? found
    | none => exact nearest_exact nonzero finite

theorem nearest_of_mantissa_eq_zero {decimal : Decimal} (zero : decimal.mantissa = 0) :
    nearest decimal = 0 := by
  have ratio : (clampExponent decimal).ratio.1 = 0 := by
    rw [ratio_eq, clampExponent, zero, Nat.zero_mul]
  rw [nearest, nearestToRatio, if_pos ratio]

/-- Only zero is written without a digit of its own, and it has no places. -/
theorem exponent_shortest_of_mantissa_eq_zero {tie : Tie} {bits : Nat}
    (finite : bits < infinityBits) (zero : (shortest tie bits).mantissa = 0) :
    (shortest tie bits).exponent = 0 := by
  have nothing : bits = 0 := by
    rw [← nearest_shortest tie finite]
    exact nearest_of_mantissa_eq_zero zero
  rw [shortest, if_pos nothing]

theorem exponent_onGrids?_le {tie : Tie} {bits grids : Nat} {exponent : Int} {decimal : Decimal}
    (found : onGrids? tie bits grids exponent = some decimal) : decimal.exponent ≤ exponent := by
  have onGrid {exponent : Int} (found : onGrid? tie bits exponent = some decimal) :
      decimal.exponent = exponent := by
    simp only [onGrid?] at found
    split at found <;> cases found <;> rfl
  induction grids generalizing exponent with
  | zero => cases found
  | succ grids ih =>
    simp only [onGrids?] at found
    split at found
    next success =>
      cases found
      exact (onGrid success).le
    next =>
      have finer := ih found
      omega

/-- The largest finite number has fewer than four hundred digits before the point. -/
theorem ratio_lt {bits : Nat} (finite : bits < infinityBits) :
    (Binary64.ratio bits).1 < 10 ^ 400 := by
  have below := (isCanonical_of_bits bits).below
  have top : (Binary64.exponent bits).toNat ≤ 971 := by
    have least := leastExponent_eq
    rw [infinityBits_eq] at finite
    rw [Binary64.exponent, least, binade_eq]
    split <;> omega
  have numerator : (Binary64.ratio bits).1 =
      significand bits * 2 ^ (Binary64.exponent bits).toNat := by
    rw [Binary64.ratio, divTwoPow_eq, Int.neg_neg]
  rw [numerator]
  calc significand bits * 2 ^ (Binary64.exponent bits).toNat
    _ < 2 ^ 53 * 2 ^ 971 :=
      Nat.mul_lt_mul_of_lt_of_le below (Nat.pow_le_pow_right (by decide) top) (by positivity)
    _ ≤ 10 ^ 400 := by decide +kernel

theorem exponent_shortest_le {tie : Tie} {bits : Nat} (finite : bits < infinityBits) :
    (shortest tie bits).exponent ≤ 400 := by
  have coarsest : coarsestExponent (Binary64.ratio bits).1 (Binary64.ratio bits).2 ≤ 400 := by
    unfold coarsestExponent
    split
    · have quotient : (Binary64.ratio bits).1 / (Binary64.ratio bits).2 < 10 ^ 400 :=
        (Nat.div_le_self _ _).trans_lt (ratio_lt finite)
      have digits := (Nat.length_toDigits_le_iff (by decide) (by decide)).mpr quotient
      rw [digitCount]
      omega
    · omega
  unfold shortest
  split
  · exact Int.le_of_lt (by decide)
  next nonzero =>
    dsimp only
    cases found : onGrids? tie bits 18
        (coarsestExponent (Binary64.ratio bits).1 (Binary64.ratio bits).2) with
    | some decimal => exact (exponent_onGrids?_le found).trans coarsest
    | none =>
      obtain ⟨-, -, high⟩ := exact_value nonzero
      exact high.trans (by decide)

end Decimal

end LinearSystem
