import LinearSystem.Proofs.Binary64.Arithmetic
/-!
When operations overflow.

An operation rounds its exact result. This is finite as long as the exact result is nearer to zero
than `overflow`, and an operand that is not finite leaves no result that is (`isFinite_add`,
`isFinite_sub`, `isFinite_mul`). So what many operations lead to is finite exactly if none of them
overflows (`isFinite_foldl`).
-/
namespace LinearSystem.Binary64

open Float.Model

/-- Half a unit past the largest finite number: what lies nearer to zero is rounded to a finite
number, and all else to infinity. -/
def overflow : ℚ := (2 ^ 54 - 1) * 2 ^ 970

theorem two_pow_le_overflow : (2 : ℚ) ^ (1023 : ℤ) ≤ overflow := by
  calc (2 : ℚ) ^ (1023 : ℤ)
    _ = 2 ^ 53 * 2 ^ 970 := (zpow_ofNat 2 1023).trans (pow_add 2 53 970)
    _ ≤ (2 ^ 54 - 1) * 2 ^ 970 := by gcongr; norm_num

theorem overflow_le_two_pow : overflow ≤ (2 : ℚ) ^ (1024 : ℤ) := by
  calc (2 ^ 54 - 1) * (2 : ℚ) ^ 970
    _ ≤ 2 ^ 54 * 2 ^ 970 := by gcongr; norm_num
    _ = 2 ^ (1024 : ℤ) := ((zpow_ofNat 2 1024).trans (pow_add 2 54 970)).symm

theorem overflow_pos : 0 < overflow := lt_of_lt_of_le (by positivity) two_pow_le_overflow

/-- The number that a float stands for; zero if it stands for none. -/
def value : UnpackedFloat → ℚ
  | .finite sign mantissa exponent _ => (sign.apply mantissa : ℤ) * 2 ^ exponent
  | _ => 0

/-- The number that a finite float stands for. -/
def toRat (x : Float) : ℚ := value (unpacked x)

/-! ### Rounding -/

theorem mantissa_shiftRight (mantissa count : Nat) :
    (UnpackedFloat.ExtendedMantissa.mk mantissa false false >>> count).mantissa =
      mantissa / 2 ^ count := by
  induction count with
  | zero => exact (Nat.div_one mantissa).symm
  | succ count ih =>
    rw [Nat.pow_succ, ← Nat.div_div_eq_div_mul, ← ih]
    rfl

/-- The last bit that is shifted out is the one to round by. -/
theorem roundBit_shiftRight (mantissa count : Nat) :
    (UnpackedFloat.ExtendedMantissa.mk mantissa false false >>> (count + 1)).roundBit =
      (mantissa / 2 ^ count % 2 != 0) := by
  rw [← mantissa_shiftRight]
  rfl

theorem le_roundedMantissa (extended : UnpackedFloat.ExtendedMantissa) :
    extended.mantissa ≤ extended.roundedMantissa ∧
      extended.roundedMantissa ≤ extended.mantissa + 1 := by
  obtain ⟨mantissa, roundBit, stickyBit⟩ := extended
  cases roundBit <;> cases stickyBit <;>
    simp only [UnpackedFloat.ExtendedMantissa.roundedMantissa,
      UnpackedFloat.ExtendedMantissa.accuracy, UnpackedFloat.Accuracy.roundToNearestEven] <;> omega

/-- An odd significand is rounded up whenever half a unit or more is shifted out. -/
theorem roundedMantissa_of_odd {extended : UnpackedFloat.ExtendedMantissa}
    (odd : extended.mantissa % 2 = 1) :
    extended.roundedMantissa = extended.mantissa + extended.roundBit.toNat := by
  obtain ⟨mantissa, roundBit, stickyBit⟩ := extended
  cases roundBit <;> cases stickyBit <;>
    simp_all [UnpackedFloat.ExtendedMantissa.roundedMantissa,
      UnpackedFloat.ExtendedMantissa.accuracy, UnpackedFloat.Accuracy.roundToNearestEven]

/-- A significand that is rounded to a unit that is so many binary places higher. -/
def rounded (mantissa count : Nat) : Nat :=
  (UnpackedFloat.ExtendedMantissa.mk mantissa false false >>> count).roundedMantissa

theorem rounded_le {mantissa count : Nat} (below : mantissa < 2 ^ (53 + count)) :
    rounded mantissa count ≤ 2 ^ 53 := by
  have bound := (le_roundedMantissa
    (UnpackedFloat.ExtendedMantissa.mk mantissa false false >>> count)).2
  have quotient : mantissa / 2 ^ count < 2 ^ 53 := by
    rwa [Nat.div_lt_iff_lt_mul (by positivity), ← Nat.pow_add]
  rw [mantissa_shiftRight] at bound
  unfold rounded
  omega

/-- A significand is rounded to the next power of two from half a unit below it on. -/
theorem rounded_lt_iff {mantissa count : Nat} (below : mantissa < 2 ^ (53 + count)) :
    rounded mantissa count < 2 ^ 53 ↔ 2 * mantissa < (2 ^ 54 - 1) * 2 ^ count := by
  cases count with
  | zero =>
    have same : rounded mantissa 0 = mantissa := rfl
    rw [same]
    omega
  | succ count =>
    -- Of the binary places that are shifted out only the highest matters: what is rounded to the
    -- next power of two is all ones, so it is odd.
    let extended := UnpackedFloat.ExtendedMantissa.mk mantissa false false >>> (count + 1)
    have kept : extended.mantissa = mantissa / 2 ^ count / 2 := by
      rw [mantissa_shiftRight, Nat.pow_succ, Nat.div_div_eq_div_mul]
    have shifted : extended.roundBit = (mantissa / 2 ^ count % 2 != 0) :=
      roundBit_shiftRight mantissa count
    have bounds := le_roundedMantissa extended
    have threshold : 2 * mantissa < (2 ^ 54 - 1) * 2 ^ (count + 1) ↔
        mantissa / 2 ^ count < 2 ^ 54 - 1 := by
      rw [Nat.div_lt_iff_lt_mul (by positivity), Nat.pow_succ]
      omega
    have quotient : mantissa / 2 ^ count < 2 ^ 54 := by
      rw [Nat.div_lt_iff_lt_mul (by positivity), ← Nat.pow_add]
      have same : 53 + (count + 1) = 54 + count := by omega
      rwa [same] at below
    rw [threshold]
    change extended.roundedMantissa < 2 ^ 53 ↔ _
    by_cases full : extended.mantissa = 2 ^ 53 - 1
    · have odd : extended.mantissa % 2 = 1 := by omega
      rw [roundedMantissa_of_odd odd, shifted]
      rcases Nat.mod_two_eq_zero_or_one (mantissa / 2 ^ count) with even | odd
      · rw [even]
        change extended.mantissa + 0 < _ ↔ _
        omega
      · rw [odd]
        change extended.mantissa + 1 < _ ↔ _
        omega
    · omega

/-- A float is packed as a finite one if its exponent is not too large. -/
theorem isFinite_pack_finite {sign : UnpackedFloat.Sign} {mantissa : Nat} {exponent : Int}
    {positive : 0 < mantissa} :
    (Float.ofModel (pack (.finite sign mantissa exponent positive))).isFinite = true ↔
      exponent ≤ 971 := by
  have packed : pattern (Float.ofModel (pack (.finite sign mantissa exponent positive))) =
      UnpackedFloat.pack Format.binary64 (.finite sign mantissa exponent positive) := rfl
  have high : 2 ^ Format.binary64.exponentBits ≤ (exponent + Format.binary64.exponentBias +
      Format.binary64.mantissaBitsWithoutImplicit).toNat + 1 ↔ ¬exponent ≤ 971 := by
    change 2048 ≤ (exponent + 1023 + 52).toNat + 1 ↔ _
    omega
  rw [isFinite_iff_exponentPart, packed, UnpackedFloat.pack]
  simp only [high]
  by_cases inRange : exponent ≤ 971
  · rw [if_neg (not_not.mpr inRange)]
    simp only [inRange, iff_true]
    split
    · rw [exponentPart, UnpackedFloat.unpackExponent_packComponents, ne_eq, ← BitVec.toNat_inj,
        BitVec.toNat_ofNat]
      change ¬(exponent + 1023 + 52).toNat % 2048 = 2047
      omega
    · rw [exponentPart, UnpackedFloat.unpackExponent_packComponents]
      decide
  · rw [if_pos inRange, exponentPart, UnpackedFloat.packedInfinity,
      UnpackedFloat.unpackExponent_packComponents]
    simp [inRange]

theorem isFinite_pack_zero (sign : UnpackedFloat.Sign) :
    (Float.ofModel (pack (.zero sign))).isFinite = true := by
  cases sign <;> rfl

/-- The exponent of the unit in which a number is rounded. -/
def unitOf (mantissa : Nat) (exponent : Int) : Int :=
  Format.binary64.targetExponent (totalExponent mantissa exponent)

theorem unitOf_eq (mantissa : Nat) (exponent : Int) :
    unitOf mantissa exponent = max (mantissa.log2 + exponent - 52) (-1074) := by
  have digits : Format.binary64.mantissaBits = 53 := rfl
  have lowest : Format.binary64.minExponent = -1074 := rfl
  rw [unitOf, Format.targetExponent, totalExponent, digits, lowest]
  omega

theorem lt_two_pow_unitOf {mantissa : Nat} {exponent : Int} {count : Nat}
    (unit : unitOf mantissa exponent = exponent + count) : mantissa < 2 ^ (53 + count) := by
  have most : mantissa.log2 + 1 ≤ 53 + count := by
    rw [unitOf_eq] at unit
    omega
  exact Nat.lt_log2_self.trans_le (Nat.pow_le_pow_right (by decide) most)

/-- What has been rounded keeps its unit, unless it was rounded up to a power of two: this takes the
unit above. -/
theorem shift_rounded {mantissa : Nat} {exponent : Int} (least : -1074 ≤ exponent)
    (most : mantissa ≤ 2 ^ 53) :
    ∃ kept, UnpackedFloat.shiftToTargetExponent Format.binary64 mantissa exponent .exact =
      (kept, if mantissa < 2 ^ 53 then exponent else exponent + 1) ∧
        (kept.mantissa = 0 → mantissa = 0) := by
  have unit := unitOf_eq mantissa exponent
  unfold unitOf at unit
  simp only [UnpackedFloat.shiftToTargetExponent, UnpackedFloat.shiftToExponent, unit]
  by_cases below : mantissa < 2 ^ 53
  · have digits : mantissa.log2 ≤ 52 := by
      by_cases zero : mantissa = 0
      · simp [zero]
      · have := (Nat.log2_lt zero).mpr below
        omega
    have amount : (max (mantissa.log2 + exponent - 52) (-1074) - exponent).toNat = 0 := by omega
    refine ⟨_, Prod.ext rfl ?_, ?_⟩
    · rw [amount, if_pos below]
      omega
    · rw [amount]
      exact id
  · obtain rfl : mantissa = 2 ^ 53 := by omega
    have amount : (max ((2 ^ 53 : Nat).log2 + exponent - 52) (-1074) - exponent).toNat = 1 := by
      rw [Nat.log2_two_pow]
      omega
    refine ⟨_, Prod.ext rfl ?_, ?_⟩
    · rw [amount, if_neg below]
      omega
    · rw [amount]
      intro zero
      cases zero

/-- A positive number is rounded to a finite one unless its unit is too large, or the unit above
where it is rounded up to the next power of two. -/
theorem isFinite_roundWithAccuracy {sign : UnpackedFloat.Sign} {mantissa count : Nat}
    {exponent : Int} (positive : 0 < mantissa)
    (unit : unitOf mantissa exponent = exponent + count) :
    (Float.ofModel (pack (UnpackedFloat.roundWithAccuracy Format.binary64 sign mantissa exponent
        .exact))).isFinite = true ↔
      (if rounded mantissa count < 2 ^ 53 then exponent + count else exponent + count + 1) ≤
        971 := by
  have explicit := unitOf_eq mantissa exponent
  have amount : (unitOf mantissa exponent - exponent).toNat = count := by omega
  obtain ⟨kept, second, zero⟩ := @shift_rounded (rounded mantissa count) (exponent + count)
    (by omega) (rounded_le (lt_two_pow_unitOf unit))
  have first : UnpackedFloat.shiftToTargetExponent Format.binary64 mantissa exponent .exact =
      (UnpackedFloat.ExtendedMantissa.mk mantissa false false >>> count, exponent + count) := by
    unfold unitOf at amount
    rw [UnpackedFloat.shiftToTargetExponent, UnpackedFloat.shiftToExponent, amount]
    rfl
  unfold rounded at second zero ⊢
  simp only [UnpackedFloat.roundWithAccuracy, first, second]
  split
  next vanished =>
    -- Only a number below the smallest unit is rounded to zero.
    have nothing := zero vanished
    have bounds := (le_roundedMantissa
      (UnpackedFloat.ExtendedMantissa.mk mantissa false false >>> count)).1
    rw [nothing, mantissa_shiftRight, Nat.le_zero, Nat.div_eq_zero_iff_lt (by positivity)] at bounds
    have small := (Nat.log2_lt positive.ne').mpr bounds
    rw [nothing, if_pos (by decide)]
    have unitIsLeast : exponent + count = -1074 := by omega
    simp [unitIsLeast, isFinite_pack_zero]
  next => exact isFinite_pack_finite

/-- In the highest unit, the threshold lies half a unit below the next power of two. -/
theorem lt_overflow_iff {mantissa count : Nat} {exponent : Int} (highest : exponent + count = 971) :
    (mantissa : ℚ) * 2 ^ exponent < overflow ↔ 2 * mantissa < (2 ^ 54 - 1) * 2 ^ count := by
  have half : (mantissa : ℚ) * 2 ^ exponent = (2 * mantissa : ℕ) * 2 ^ (exponent - 1) := by
    rw [zpow_sub_one₀ two_ne_zero, Nat.cast_mul]
    push_cast
    ring
  have factor : ((2 ^ 54 - 1 : ℕ) : ℚ) = 2 ^ 54 - 1 := by norm_num
  have powers : (2 : ℚ) ^ 970 = 2 ^ count * 2 ^ (exponent - 1) := by
    rw [← zpow_natCast, ← zpow_natCast, ← zpow_add₀ two_ne_zero]
    congr 1
    omega
  have limit : overflow = ((2 ^ 54 - 1) * 2 ^ count : ℕ) * 2 ^ (exponent - 1) := by
    rw [overflow, powers, Nat.cast_mul, factor, Nat.cast_pow, Nat.cast_ofNat, mul_assoc]
  rw [half, limit, mul_lt_mul_iff_left₀ (by positivity), Nat.cast_lt]

/-- A positive number is rounded to a finite one exactly if it lies below the threshold. -/
theorem isFinite_roundWithAccuracy_iff {sign : UnpackedFloat.Sign} {mantissa : Nat}
    {exponent : Int} (positive : 0 < mantissa) (least : exponent ≤ unitOf mantissa exponent) :
    (Float.ofModel (pack (UnpackedFloat.roundWithAccuracy Format.binary64 sign mantissa exponent
        .exact))).isFinite = true ↔ (mantissa : ℚ) * 2 ^ exponent < overflow := by
  obtain ⟨count, unit⟩ := Int.le.dest least
  have explicit := unitOf_eq mantissa exponent
  have below : (mantissa : ℚ) < 2 ^ (53 + count : ℤ) := by
    exact_mod_cast lt_two_pow_unitOf unit.symm
  have above : (2 : ℚ) ^ (mantissa.log2 : ℤ) ≤ mantissa := by
    exact_mod_cast Nat.log2_self_le positive.ne'
  have power : (0 : ℚ) < 2 ^ exponent := by positivity
  rw [isFinite_roundWithAccuracy positive unit.symm]
  rcases lt_trichotomy (exponent + count) 971 with low | edge | high
  · have small : (mantissa : ℚ) * 2 ^ exponent < overflow := by
      calc (mantissa : ℚ) * 2 ^ exponent
        _ < 2 ^ (53 + count : ℤ) * 2 ^ exponent := by gcongr
        _ = 2 ^ (53 + count + exponent) := (zpow_add₀ two_ne_zero _ _).symm
        _ ≤ 2 ^ (1023 : ℤ) := zpow_le_zpow_right₀ one_le_two (by omega)
        _ ≤ overflow := two_pow_le_overflow
    simp only [small, iff_true]
    split <;> omega
  · -- In the highest unit it depends on whether the number is rounded up to the next power of two.
    have finite : (if rounded mantissa count < 2 ^ 53 then exponent + count
        else exponent + count + 1) ≤ 971 ↔ rounded mantissa count < 2 ^ 53 := by
      split <;> omega
    rw [finite, rounded_lt_iff (lt_two_pow_unitOf unit.symm), lt_overflow_iff edge]
  · have large : ¬(mantissa : ℚ) * 2 ^ exponent < overflow := by
      rw [not_lt]
      calc overflow
        _ ≤ 2 ^ (1024 : ℤ) := overflow_le_two_pow
        _ ≤ 2 ^ (mantissa.log2 + exponent) := zpow_le_zpow_right₀ one_le_two (by omega)
        _ = 2 ^ (mantissa.log2 : ℤ) * 2 ^ exponent := zpow_add₀ two_ne_zero _ _
        _ ≤ mantissa * 2 ^ exponent := by gcongr
    simp only [large, iff_false]
    split <;> omega

theorem isFinite_round {sign : UnpackedFloat.Sign} {mantissa : Nat} {exponent : Int}
    (positive : 0 < mantissa) :
    (Float.ofModel (pack (UnpackedFloat.round Format.binary64 sign mantissa exponent))).isFinite =
      true ↔ (mantissa : ℚ) * 2 ^ exponent < overflow := by
  let count := (exponent - unitOf mantissa exponent).toNat
  have lengthened : UnpackedFloat.round Format.binary64 sign mantissa exponent =
      UnpackedFloat.roundWithAccuracy Format.binary64 sign (mantissa * 2 ^ count)
        (exponent - count) .exact := by
    rw [← Nat.shiftLeft_eq]
    rfl
  have unit : unitOf (mantissa * 2 ^ count) (exponent - count) = unitOf mantissa exponent := by
    rw [unitOf_eq, unitOf_eq, log2_mul_two_pow positive.ne']
    push_cast
    ring_nf
  have same : ((mantissa * 2 ^ count : ℕ) : ℚ) * 2 ^ (exponent - count) =
      mantissa * 2 ^ exponent := by
    rw [zpow_sub₀ two_ne_zero, zpow_natCast]
    push_cast
    field_simp
  rw [lengthened, isFinite_roundWithAccuracy_iff (by positivity) (by omega), same]

theorem isFinite_normalize {mantissa exponent : Int} {zeroSign : UnpackedFloat.Sign} :
    (Float.ofModel (pack (UnpackedFloat.normalize Format.binary64 mantissa exponent
        zeroSign))).isFinite = true ↔ |(mantissa : ℚ) * 2 ^ exponent| < overflow := by
  have magnitude : |(mantissa : ℚ) * 2 ^ exponent| = mantissa.natAbs * 2 ^ exponent := by
    rw [abs_mul, abs_of_pos (by positivity : (0 : ℚ) < 2 ^ exponent), Nat.cast_natAbs,
      Int.cast_abs]
  rw [UnpackedFloat.normalize]
  split
  next less =>
    rw [compare_lt_iff_lt] at less
    have same : (-mantissa).toNat = mantissa.natAbs := by omega
    rw [same, isFinite_round (by omega), magnitude]
  next equal =>
    rw [compare_eq_iff_eq] at equal
    simp [equal, isFinite_pack_zero, overflow_pos]
  next greater =>
    rw [compare_gt_iff_gt] at greater
    have same : mantissa.toNat = mantissa.natAbs := by omega
    rw [same, isFinite_round (by omega), magnitude]

/-! ### Operations -/

theorem isFinite_unpacked (x : Float) : x.isFinite = (unpacked x).isFinite := rfl

theorem isFinite_pack_infinity (sign : UnpackedFloat.Sign) :
    (Float.ofModel (pack (.infinity sign))).isFinite = false := by
  cases sign <;> rfl

theorem isFinite_pack_notANumber :
    (Float.ofModel (pack .notANumber)).isFinite = false := rfl

theorem abs_value (sign : UnpackedFloat.Sign) {mantissa : Nat} (exponent : Int)
    (positive : 0 < mantissa) :
    |value (.finite sign mantissa exponent positive)| = mantissa * 2 ^ exponent := by
  have power : (0 : ℚ) < 2 ^ exponent := by positivity
  rw [value, abs_mul, abs_of_pos power]
  cases sign <;> simp [UnpackedFloat.Sign.apply]

/-- No finite number overflows by itself. -/
theorem abs_toRat_lt {x : Float} (finite : x.isFinite = true) : |toRat x| < overflow := by
  rcases exists_unpacked finite with ⟨sign, parts⟩ | ⟨sign, mantissa, exponent, positive, parts⟩
  · rw [toRat, parts]
    simp [value, overflow_pos]
  · have canonical := (parts_of_unpacked parts).1
    have exact := roundWithAccuracy_exact positive canonical sign 0
    rw [Nat.pow_zero, Nat.mul_one, Nat.cast_zero, Int.sub_zero, ← parts] at exact
    have unit : unitOf mantissa exponent = exponent :=
      targetExponent_of_canonical positive canonical
    rw [toRat, parts, abs_value, ← @isFinite_roundWithAccuracy_iff sign mantissa exponent positive
      unit.ge, exact, pack_unpacked]
    exact finite

/-- A product of two significands has all the binary places that its unit has. -/
theorem le_unitOf_mul {first second : Nat} {exponent exponent' : Int} (positive : 0 < first)
    (positive' : 0 < second) (canonical : IsCanonical first exponent)
    (canonical' : IsCanonical second exponent') :
    exponent + exponent' ≤ unitOf (first * second) (exponent + exponent') := by
  have long {full : Nat} (digits : 2 ^ 52 ≤ full) (most : full ≤ first * second) :
      52 ≤ (first * second).log2 :=
    (Nat.le_log2 (by positivity)).mpr (digits.trans most)
  rw [unitOf_eq]
  rcases canonical.full with full | rfl
  · have digits := long full (Nat.le_mul_of_pos_right _ positive')
    omega
  · rcases canonical'.full with full | rfl
    · have digits := long full (Nat.le_mul_of_pos_left _ positive)
      omega
    · omega

/-- A product is finite if its factors are and the exact one does not overflow. -/
theorem isFinite_mul {x y : Float} : (x * y).isFinite = true ↔
    x.isFinite = true ∧ y.isFinite = true ∧ |toRat x * toRat y| < overflow := by
  have product : x * y = Float.ofModel (pack (UnpackedFloat.mul Format.binary64 (unpacked x)
    (unpacked y))) := rfl
  rw [product, isFinite_unpacked x, isFinite_unpacked y, toRat, toRat]
  cases parts : unpacked x with
  | infinity sign | notANumber =>
    cases unpacked y <;>
      simp [UnpackedFloat.mul, UnpackedFloat.isFinite, isFinite_pack_infinity,
        isFinite_pack_notANumber]
  | zero sign =>
    cases unpacked y <;>
      simp [UnpackedFloat.mul, UnpackedFloat.isFinite, isFinite_pack_zero,
        isFinite_pack_notANumber, value, overflow_pos]
  | finite sign mantissa exponent positive =>
    cases parts' : unpacked y with
    | infinity sign' | notANumber =>
      simp [UnpackedFloat.mul, UnpackedFloat.isFinite, isFinite_pack_infinity,
        isFinite_pack_notANumber]
    | zero sign' =>
      simp [UnpackedFloat.mul, UnpackedFloat.isFinite, isFinite_pack_zero, value, overflow_pos]
    | finite sign' mantissa' exponent' positive' =>
      have unit := le_unitOf_mul positive positive' (parts_of_unpacked parts).1
        (parts_of_unpacked parts').1
      have exact : |value (.finite sign mantissa exponent positive) *
          value (.finite sign' mantissa' exponent' positive')| =
          (mantissa * mantissa' : ℕ) * 2 ^ (exponent + exponent') := by
        rw [abs_mul, abs_value, abs_value, zpow_add₀ two_ne_zero, Nat.cast_mul]
        ring
      rw [UnpackedFloat.mul, isFinite_roundWithAccuracy_iff (by positivity) unit, exact]
      simp [UnpackedFloat.isFinite]

/-- A significand in a smaller unit. -/
theorem value_decreaseExponent (sign : UnpackedFloat.Sign) {mantissa : Nat} {exponent lower : Int}
    (positive : 0 < mantissa) (isLower : lower ≤ exponent) :
    (sign.apply (UnpackedFloat.decreaseExponent mantissa exponent lower).1 : ℚ) * 2 ^ lower =
      value (.finite sign mantissa exponent positive) := by
  obtain ⟨count, rfl⟩ := Int.le.dest isLower
  have amount : (lower + count - lower).toNat = count := by omega
  rw [UnpackedFloat.decreaseExponent, amount, Nat.shiftLeft_eq, value, zpow_add₀ two_ne_zero,
    zpow_natCast]
  cases sign <;> simp only [UnpackedFloat.Sign.apply] <;> push_cast <;> ring

/-- To add zero gives back the other number, which is finite and does not overflow. -/
theorem isFinite_alone {x : Float} {sign : UnpackedFloat.Sign} {mantissa : Nat} {exponent : Int}
    {positive : 0 < mantissa} (parts : unpacked x = .finite sign mantissa exponent positive) :
    (Float.ofModel (pack (.finite sign mantissa exponent positive))).isFinite = true ∧
      |value (.finite sign mantissa exponent positive)| < overflow := by
  have finite : x.isFinite = true := by
    rw [isFinite_unpacked, parts]
    rfl
  rw [← parts, pack_unpacked]
  exact ⟨finite, abs_toRat_lt finite⟩

/-- A sum is finite if its terms are and the exact one does not overflow. -/
theorem isFinite_add {x y : Float} : (x + y).isFinite = true ↔
    x.isFinite = true ∧ y.isFinite = true ∧ |toRat x + toRat y| < overflow := by
  have sum : x + y = Float.ofModel (pack (UnpackedFloat.add Format.binary64 (unpacked x)
    (unpacked y))) := rfl
  have nothing (sign : UnpackedFloat.Sign) : value (.zero sign) = 0 := rfl
  rw [sum, isFinite_unpacked x, isFinite_unpacked y, toRat, toRat]
  cases parts : unpacked x with
  | infinity sign | notANumber =>
    -- Infinities of the same sign give an infinity and those of different signs no number.
    cases unpacked y <;> simp only [UnpackedFloat.add] <;> try split
    all_goals simp [UnpackedFloat.isFinite, isFinite_pack_infinity, isFinite_pack_notANumber]
  | zero sign =>
    cases parts' : unpacked y with
    | infinity sign' | notANumber =>
      simp [UnpackedFloat.add, UnpackedFloat.isFinite, isFinite_pack_infinity,
        isFinite_pack_notANumber]
    | zero sign' =>
      simp only [UnpackedFloat.add]
      split <;> simp [UnpackedFloat.isFinite, isFinite_pack_zero, nothing, overflow_pos]
    | finite sign' mantissa' exponent' positive' =>
      simp [UnpackedFloat.add, UnpackedFloat.isFinite, isFinite_alone parts', nothing]
  | finite sign mantissa exponent positive =>
    cases parts' : unpacked y with
    | infinity sign' | notANumber =>
      simp [UnpackedFloat.add, UnpackedFloat.isFinite, isFinite_pack_infinity,
        isFinite_pack_notANumber]
    | zero sign' =>
      simp [UnpackedFloat.add, UnpackedFloat.isFinite, isFinite_alone parts, nothing]
    | finite sign' mantissa' exponent' positive' =>
      -- Both significands are brought to the smaller unit, where they are added without rounding.
      have exact := congrArg₂ (· + ·)
        (value_decreaseExponent sign positive (min_le_left exponent exponent'))
        (value_decreaseExponent sign' positive' (min_le_right exponent exponent'))
      simp only [← add_mul, ← Int.cast_add] at exact
      rw [← exact, UnpackedFloat.add, isFinite_normalize]
      simp [UnpackedFloat.isFinite]

theorem unpacked_opposite (x : Float) : unpacked (-x) = (unpacked x).neg := by
  by_cases finite : x.isFinite = true
  · exact unpacked_neg finite
  · have opposite : -x = Float.ofModel (pack (unpacked x).neg) := rfl
    rw [isFinite_unpacked] at finite
    rw [opposite]
    cases parts : unpacked x with
    | infinity sign => cases sign <;> rfl
    | notANumber => rfl
    | zero | finite =>
      rw [parts] at finite
      exact absurd rfl finite

theorem isFinite_neg_iff {x : Float} : (-x).isFinite = true ↔ x.isFinite = true := by
  rw [isFinite_unpacked, isFinite_unpacked, unpacked_opposite]
  cases unpacked x <;> rfl

theorem toRat_neg (x : Float) : toRat (-x) = -toRat x := by
  rw [toRat, toRat, unpacked_opposite]
  cases unpacked x with
  | infinity | notANumber | zero => simp [UnpackedFloat.neg, value]
  | finite sign =>
    cases sign <;> simp [UnpackedFloat.neg, value, UnpackedFloat.Sign.apply]

/-- To take a number away is to add its opposite. -/
theorem sub_eq_add_opposite (x y : Float) : x - y = x + -y := by
  have difference : x - y = Float.ofModel (pack
    (UnpackedFloat.sub Format.binary64 (unpacked x) (unpacked y))) := rfl
  have sum : x + -y = Float.ofModel (pack
    (UnpackedFloat.add Format.binary64 (unpacked x) (unpacked (-y)))) := rfl
  rw [difference, sum, unpacked_opposite]
  congr 2
  have apply (sign : UnpackedFloat.Sign) (mantissa : Int) :
      (-sign).apply mantissa = -sign.apply mantissa := by
    cases sign with
    | positive => rfl
    | negative => exact (Int.neg_neg mantissa).symm
  cases unpacked x with
  | infinity | notANumber | zero => cases unpacked y <;> rfl
  | finite =>
    cases unpacked y with
    | infinity | notANumber | zero => rfl
    | finite =>
      simp only [UnpackedFloat.sub, UnpackedFloat.neg, UnpackedFloat.add, apply,
        ← sub_eq_add_neg]

/-- A difference is finite if its terms are and the exact one does not overflow. -/
theorem isFinite_sub {x y : Float} : (x - y).isFinite = true ↔
    x.isFinite = true ∧ y.isFinite = true ∧ |toRat x - toRat y| < overflow := by
  rw [sub_eq_add_opposite, isFinite_add, isFinite_neg_iff, toRat_neg, ← sub_eq_add_neg]

/-! ### Many operations -/

/-- None of the steps from a number on through a list overflows. -/
def StaysBelow (step : Float → Float → Float) (exact : ℚ → ℚ → ℚ) : Float → List Float → Prop
  | _, [] => True
  | x, y :: rest =>
    |exact (toRat x) (toRat y)| < overflow ∧ StaysBelow step exact (step x y) rest

/-- What many operations lead to is finite exactly if all numbers are and no step overflows. -/
theorem isFinite_foldl {step : Float → Float → Float} {exact : ℚ → ℚ → ℚ}
    (single : ∀ {x y}, (step x y).isFinite = true ↔
      x.isFinite = true ∧ y.isFinite = true ∧ |exact (toRat x) (toRat y)| < overflow)
    (numbers : List Float) (x : Float) :
    (numbers.foldl step x).isFinite = true ↔
      x.isFinite = true ∧ (∀ y ∈ numbers, y.isFinite = true) ∧ StaysBelow step exact x numbers := by
  induction numbers generalizing x with
  | nil => simp [StaysBelow]
  | cons y rest ih =>
    rw [List.foldl_cons, ih, single, List.forall_mem_cons, StaysBelow]
    tauto

end LinearSystem.Binary64
