import LinearSystem.Proofs.Binary64.Pattern
/-!
Sums and products that are exact.

To multiply a finite number by one or minus one, to add it to zero and to take it from zero changes
nothing but its sign. Only the product is rounded at all: its significand is moved by fifty-two
binary places, and back without a remainder (`roundWithAccuracy_exact`).
-/
namespace LinearSystem.Binary64

open Float.Model

/-! ### Numbers taken apart -/

theorem toNat_implicit (mantissa : BitVec 52) :
    (1#1 ++ mantissa).toNat = 2 ^ 52 + mantissa.toNat := by
  rw [BitVec.toNat_append, ← Nat.shiftLeft_add_eq_or_of_lt mantissa.isLt]
  rfl

theorem parts_of_unpacked {x : Float} {sign : UnpackedFloat.Sign} {mantissa : Nat}
    {exponent : Int} {positive : 0 < mantissa}
    (parts : unpacked x = .finite sign mantissa exponent positive) :
    IsCanonical mantissa exponent ∧ sign = .ofBitVec (signPart (pattern x)) := by
  have bias : Format.binary64.exponentBias = 1023 := rfl
  have width : Format.binary64.mantissaBitsWithoutImplicit = 52 := rfl
  have bound := (mantissaPart (pattern x)).isLt
  have implicit := toNat_implicit (mantissaPart (pattern x))
  unfold mantissaPart at bound implicit
  rw [unpacked_eq, UnpackedFloat.unpack] at parts
  split at parts
  · split at parts <;> cases parts
  · split at parts
    next low =>
      split at parts
      · cases parts
      · cases parts
        rw [low]
        have exponent : ((0#11).toNat : Int) - (Format.binary64.exponentBias + 52) + 1 = -1074 := by
          rw [bias]
          rfl
        exact ⟨⟨exponent.ge, by omega, .inr exponent⟩, rfl⟩
    next high =>
      cases parts
      have above : 0 < (exponentPart (pattern x)).toNat := by
        apply Nat.pos_of_ne_zero
        intro zero
        exact high (BitVec.eq_of_toNat_eq zero)
      unfold exponentPart at above
      rw [bias]
      exact ⟨⟨by omega, by omega, .inl (by omega)⟩, rfl⟩

theorem exists_unpacked {x : Float} (finite : x.isFinite = true) :
    (∃ sign, unpacked x = .zero sign) ∨
      ∃ sign mantissa exponent positive,
        unpacked x = .finite sign mantissa exponent positive := by
  have isFinite : (unpacked x).isFinite = true := finite
  cases parts : unpacked x with
  | infinity | notANumber =>
    rw [parts] at isFinite
    cases isFinite
  | zero sign => exact .inl ⟨sign, rfl⟩
  | finite sign mantissa exponent positive =>
    exact .inr ⟨sign, mantissa, exponent, positive, rfl⟩

theorem beq_zero_eq (x : Float) :
    (x == 0) = UnpackedFloat.beq (unpacked x) (.zero .positive) := rfl

theorem exists_unpacked_of_ne_zero {x : Float} (finite : x.isFinite = true)
    (nonzero : (x == 0) = false) :
    ∃ sign mantissa exponent positive,
      unpacked x = .finite sign mantissa exponent positive := by
  rcases exists_unpacked finite with ⟨sign, parts⟩ | parts
  · rw [beq_zero_eq, parts] at nonzero
    cases nonzero
  · exact parts

/-! ### Rounding what needs no rounding -/

theorem targetExponent_of_canonical {mantissa : Nat} {exponent : Int} (positive : 0 < mantissa)
    (canonical : IsCanonical mantissa exponent) :
    Format.binary64.targetExponent (totalExponent mantissa exponent) = exponent := by
  obtain ⟨least, below, full⟩ := canonical
  have digits : Format.binary64.mantissaBits = 53 := rfl
  have lowest : Format.binary64.minExponent = -1074 := rfl
  have upper : mantissa.log2 < 53 := (Nat.log2_lt positive.ne').mpr below
  rw [Format.targetExponent, totalExponent, digits, lowest]
  rcases full with full | rfl
  · have lower : 52 ≤ mantissa.log2 := (Nat.le_log2 positive.ne').mpr full
    omega
  · omega

theorem shiftRight_exact (mantissa count : Nat) :
    (UnpackedFloat.ExtendedMantissa.mk (mantissa * 2 ^ count) false false >>> count) =
      ⟨mantissa, false, false⟩ := by
  change count.repeat _ _ = _
  induction count generalizing mantissa with
  | zero => simp [Nat.repeat]
  | succ count ih =>
    have shift : mantissa * 2 ^ (count + 1) = mantissa * 2 * 2 ^ count := by ring
    rw [Nat.repeat, shift, ih]
    simp [UnpackedFloat.ExtendedMantissa.shiftRightOne]

theorem log2_mul_two_pow {n : Nat} (nonzero : n ≠ 0) (count : Nat) :
    (n * 2 ^ count).log2 = n.log2 + count := by
  induction count with
  | zero => simp
  | succ count ih =>
    have double : n * 2 ^ (count + 1) = 2 * (n * 2 ^ count) := by ring
    have positive : n * 2 ^ count ≠ 0 := by positivity
    rw [double, Nat.log2_two_mul positive, ih, Nat.add_assoc]

theorem shiftToTargetExponent_exact {mantissa : Nat} {exponent : Int} (positive : 0 < mantissa)
    (canonical : IsCanonical mantissa exponent) (count : Nat) :
    UnpackedFloat.shiftToTargetExponent Format.binary64 (mantissa * 2 ^ count) (exponent - count)
        .exact = (⟨mantissa, false, false⟩, exponent) := by
  have total : totalExponent (mantissa * 2 ^ count) (exponent - count) =
      totalExponent mantissa exponent := by
    rw [totalExponent, totalExponent, log2_mul_two_pow positive.ne']
    omega
  have amount : (exponent - (exponent - (count : Int))).toNat = count := by omega
  have sum : exponent - (count : Int) + count = exponent := by omega
  simp only [UnpackedFloat.shiftToTargetExponent, UnpackedFloat.shiftToExponent, total,
    targetExponent_of_canonical positive canonical, amount, sum]
  rw [UnpackedFloat.ExtendedMantissa.ofMantissaAndAccuracy, shiftRight_exact]

/-- A significand that only got zeros at its end is rounded to what it was. -/
theorem roundWithAccuracy_exact {mantissa : Nat} {exponent : Int} (positive : 0 < mantissa)
    (canonical : IsCanonical mantissa exponent) (sign : UnpackedFloat.Sign) (count : Nat) :
    UnpackedFloat.roundWithAccuracy Format.binary64 sign (mantissa * 2 ^ count) (exponent - count)
        .exact = .finite sign mantissa exponent positive := by
  have first := shiftToTargetExponent_exact positive canonical count
  have second := shiftToTargetExponent_exact positive canonical 0
  rw [Nat.pow_zero, Nat.mul_one, Nat.cast_zero, Int.sub_zero] at second
  have rounded : (UnpackedFloat.ExtendedMantissa.mk mantissa false false).roundedMantissa =
    mantissa := rfl
  simp only [UnpackedFloat.roundWithAccuracy, first, rounded, second, positive.ne', dite_false]

/-! ### Operations -/

/-- To multiply a finite number by one or minus one changes nothing but its sign. -/
theorem unit_mul {x : Float} (finite : x.isFinite = true) (sign : UnpackedFloat.Sign) :
    UnpackedFloat.mul Format.binary64 (.finite sign (2 ^ 52) (-52) (by decide)) (unpacked x) =
      match sign with
      | .positive => unpacked x
      | .negative => (unpacked x).neg := by
  rcases exists_unpacked finite with ⟨own, parts⟩ | ⟨own, mantissa, exponent, positive, parts⟩
  · rw [parts]
    cases sign <;> cases own <;> rfl
  · have rounded :=
      roundWithAccuracy_exact positive (parts_of_unpacked parts).1 (sign * own) 52
    have product : mantissa * 2 ^ 52 = 2 ^ 52 * mantissa := Nat.mul_comm _ _
    have sum : exponent - (52 : Nat) = -52 + exponent := by omega
    rw [product, sum] at rounded
    rw [parts, UnpackedFloat.mul, rounded]
    cases sign <;> cases own <;> rfl

section

variable {x : Float} (finite : x.isFinite = true)

include finite

theorem one_mul : 1 * x = x := by
  have product : 1 * x = Float.ofModel (pack (UnpackedFloat.mul Format.binary64
    (.finite .positive (2 ^ 52) (-52) (by decide)) (unpacked x))) := rfl
  rw [product, unit_mul finite]
  exact pack_unpacked x

theorem neg_one_mul : -1 * x = -x := by
  have product : -1 * x = Float.ofModel (pack (UnpackedFloat.mul Format.binary64
    (.finite .negative (2 ^ 52) (-52) (by decide)) (unpacked x))) := rfl
  rw [product, unit_mul finite]
  rfl

variable (nonzero : (x == 0) = false)

include nonzero

theorem zero_add : 0 + x = x := by
  obtain ⟨sign, mantissa, exponent, positive, parts⟩ := exists_unpacked_of_ne_zero finite nonzero
  have sum : 0 + x = Float.ofModel (pack
    (UnpackedFloat.add Format.binary64 (.zero .positive) (unpacked x))) := rfl
  have same : UnpackedFloat.add Format.binary64 (.zero .positive) (unpacked x) = unpacked x := by
    rw [parts]
    rfl
  rw [sum, same, pack_unpacked]

theorem zero_sub : 0 - x = -x := by
  obtain ⟨sign, mantissa, exponent, positive, parts⟩ := exists_unpacked_of_ne_zero finite nonzero
  have difference : 0 - x = Float.ofModel (pack
    (UnpackedFloat.sub Format.binary64 (.zero .positive) (unpacked x))) := rfl
  have opposite : UnpackedFloat.sub Format.binary64 (.zero .positive) (unpacked x) =
      (unpacked x).neg := by
    rw [parts]
    rfl
  rw [difference, opposite]
  rfl

theorem neg_beq_zero : (-x == 0) = false := by
  obtain ⟨sign, mantissa, exponent, positive, parts⟩ := exists_unpacked_of_ne_zero finite nonzero
  rw [beq_zero_eq, unpacked_neg finite, parts]
  cases sign <;> rfl

theorem lt_zero_iff : x < 0 ↔ isNegative x = true := by
  obtain ⟨sign, mantissa, exponent, positive, parts⟩ := exists_unpacked_of_ne_zero finite nonzero
  have less : x < 0 ↔ UnpackedFloat.lt (unpacked x) (.zero .positive) = true := by
    change decide (UnpackedFloat.lt (unpacked x) (.zero .positive) = true) = true ↔ _
    exact decide_eq_true_iff
  have own := (parts_of_unpacked parts).2
  rw [less, parts, isNegative_eq]
  rw [UnpackedFloat.Sign.ofBitVec] at own
  split at own
  next zero =>
    subst own
    simp [zero, UnpackedFloat.lt, UnpackedFloat.compare]
  next one =>
    subst own
    simp [one, UnpackedFloat.lt, UnpackedFloat.compare]

end

/-- There are two zeros. -/
theorem eq_zero_of_beq {x : Float} (zero : (x == 0) = true) (notNegative : x ≠ -0) : x = 0 := by
  rw [Float.beq_iff_ne_nan_and_eq] at zero
  rcases zero.2.2 with same | ⟨same, -⟩ | ⟨same, -⟩
  · exact same
  · exact same
  · exact absurd same notNegative

end LinearSystem.Binary64
