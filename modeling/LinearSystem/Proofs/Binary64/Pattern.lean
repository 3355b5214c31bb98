import LinearSystem.Binary64
import Mathlib
/-!
Floating-point numbers by their patterns.

A pattern is a sign bit, eleven bits of exponent and fifty-two of significand. A number is put
together again from its sign and the rest of its pattern (`assemble_eq`); it is finite if that rest
is below the pattern of infinity (`isFinite_iff`); and to negate a finite number is to flip its sign
(`isNegative_neg`, `magnitudeBits_neg`).
-/
namespace LinearSystem.Binary64

open Float.Model

/-- The pattern of a number. -/
def pattern (x : Float) : BitVec 64 := x.toBits.toBitVec

/-- A number taken apart into sign, significand and exponent. -/
def unpacked (x : Float) : UnpackedFloat := x.toModel.unpack

theorem unpacked_eq (x : Float) :
    unpacked x = UnpackedFloat.unpack Format.binary64 (pattern x) := rfl

theorem pack_unpacked (x : Float) : Float.ofModel (pack (unpacked x)) = x := Float.ofBits_toBits x

theorem toNat_pattern (x : Float) : (pattern x).toNat = x.toBits.toNat := rfl

theorem signBit_eq : signBit = 2 ^ 63 := rfl

theorem infinityBits_eq : infinityBits = 2047 * 2 ^ 52 := rfl

/-! ### The parts of a pattern -/

abbrev mantissaPart (bits : BitVec 64) : BitVec 52 :=
  @UnpackedFloat.unpackMantissa Format.binary64 bits

abbrev exponentPart (bits : BitVec 64) : BitVec 11 :=
  @UnpackedFloat.unpackExponent Format.binary64 bits

abbrev signPart (bits : BitVec 64) : BitVec 1 := @UnpackedFloat.unpackSign Format.binary64 bits

theorem toNat_mantissaPart (bits : BitVec 64) :
    (mantissaPart bits).toNat = bits.toNat % 2 ^ 52 := by
  rw [mantissaPart, UnpackedFloat.unpackMantissa_def, BitVec.extractLsb'_toNat,
    Nat.shiftRight_zero]

theorem toNat_exponentPart (bits : BitVec 64) :
    (exponentPart bits).toNat = bits.toNat / 2 ^ 52 % 2 ^ 11 := by
  rw [exponentPart, UnpackedFloat.unpackExponent_def, BitVec.extractLsb'_toNat,
    Nat.shiftRight_eq_div_pow]

theorem toNat_signPart (bits : BitVec 64) : (signPart bits).toNat = bits.toNat / 2 ^ 63 := by
  have bound := bits.isLt
  rw [signPart, UnpackedFloat.unpackSign_def, BitVec.extractLsb'_toNat,
    Nat.shiftRight_eq_div_pow]
  change bits.toNat / 2 ^ 63 % 2 ^ 1 = bits.toNat / 2 ^ 63
  omega

/-! ### Numbers and their patterns -/

theorem isNegative_eq (x : Float) : isNegative x = (signPart (pattern x) != 0#1) := by
  have part := toNat_signPart (pattern x)
  rw [isNegative, ← toNat_pattern, signBit_eq, Bool.eq_iff_iff, bne_iff_ne, ne_eq,
    ← BitVec.toNat_inj, part]
  simp

theorem isFinite_iff_exponentPart {x : Float} :
    x.isFinite = true ↔ exponentPart (pattern x) ≠ -1#11 := by
  have finite : x.isFinite = (UnpackedFloat.unpack Format.binary64 (pattern x)).isFinite := rfl
  rw [finite, UnpackedFloat.unpack]
  split
  next top =>
    -- The highest exponent is that of infinity and of what is no number.
    refine ⟨fun isFinite => ?_, fun low => absurd top low⟩
    split at isFinite <;> cases isFinite
  next low =>
    refine ⟨fun _ => low, fun _ => ?_⟩
    split
    · split <;> rfl
    · rfl

theorem isFinite_iff {x : Float} : x.isFinite = true ↔ magnitudeBits x < infinityBits := by
  have bound := (pattern x).isLt
  have part := toNat_exponentPart (pattern x)
  have top : (-1#11).toNat = 2047 := rfl
  rw [isFinite_iff_exponentPart, ne_eq, ← BitVec.toNat_inj, part, top, magnitudeBits,
    ← toNat_pattern, infinityBits_eq, signBit_eq]
  omega

/-- A number is put together from its sign and the rest of its pattern. -/
theorem assemble_eq (x : Float) : assemble (isNegative x) (magnitudeBits x) = x := by
  have bound := (pattern x).isLt
  have whole : (if isNegative x then signBit + magnitudeBits x else magnitudeBits x) =
      x.toBits.toNat := by
    rw [toNat_pattern] at bound
    simp only [isNegative, magnitudeBits, decide_eq_true_eq]
    rw [signBit_eq]
    split <;> omega
  rw [assemble, whole, UInt64.ofNat_toNat, Float.ofBits_toBits]

/-- What is put together up to the pattern of infinity has this pattern. -/
theorem toNat_pattern_assemble {negative : Bool} {bits : Nat} (number : bits ≤ infinityBits) :
    (pattern (assemble negative bits)).toNat = if negative then signBit + bits else bits := by
  rw [infinityBits_eq] at number
  have bound : (if negative then signBit + bits else bits) < 2 ^ 64 := by
    rw [signBit_eq]
    split <;> omega
  let whole : BitVec 64 := (UInt64.ofNat (if negative then signBit + bits else bits)).toBitVec
  have read : whole.toNat = if negative then signBit + bits else bits := by
    simpa [whole] using Nat.mod_eq_of_lt bound
  have packed : pattern (assemble negative bits) =
      UnpackedFloat.pack Format.binary64 (UnpackedFloat.unpack Format.binary64 whole) := rfl
  -- The highest exponent is reached by infinity alone.
  have noNaN : ¬@UnpackedFloat.isNaNBits Format.binary64 whole = true := by
    have top : (-1#11).toNat = 2047 := rfl
    have exponent := toNat_exponentPart whole
    have mantissa := toNat_mantissaPart whole
    have either : whole.toNat = bits ∨ whole.toNat = 2 ^ 63 + bits := by
      rw [read, signBit_eq]
      cases negative <;> simp
    rw [UnpackedFloat.isNaNBits, decide_eq_true_eq]
    rintro ⟨high, nonzero⟩
    apply nonzero
    rw [← BitVec.toNat_inj] at high ⊢
    change (exponentPart whole).toNat = (-1#11).toNat at high
    change (mantissaPart whole).toNat = 0
    omega
  rw [packed, @UnpackedFloat.pack_unpack Format.binary64 whole (by decide), if_neg noNaN, read]

theorem isNegative_assemble {negative : Bool} {bits : Nat} (number : bits ≤ infinityBits) :
    isNegative (assemble negative bits) = negative := by
  have same := @toNat_pattern_assemble negative bits number
  rw [infinityBits_eq] at number
  rw [isNegative, ← toNat_pattern, same, signBit_eq]
  cases negative with
  | false => simpa using by omega
  | true => simp

theorem isFinite_assemble_iff {negative : Bool} {bits : Nat} (number : bits ≤ infinityBits) :
    (assemble negative bits).isFinite = true ↔ bits < infinityBits := by
  have same := @toNat_pattern_assemble negative bits number
  rw [isFinite_iff, magnitudeBits, ← toNat_pattern, same]
  rw [signBit_eq, infinityBits_eq] at *
  split <;> omega

/-! ### Flipping the sign -/

/-- A pattern with the other sign. -/
def flip (bits : BitVec 64) : BitVec 64 :=
  UnpackedFloat.packComponents Format.binary64 (-(UnpackedFloat.Sign.ofBitVec (signPart bits)))
    (exponentPart bits) (mantissaPart bits)

theorem mantissaPart_flip (bits : BitVec 64) : mantissaPart (flip bits) = mantissaPart bits :=
  UnpackedFloat.unpackMantissa_packComponents

theorem exponentPart_flip (bits : BitVec 64) : exponentPart (flip bits) = exponentPart bits :=
  UnpackedFloat.unpackExponent_packComponents

theorem signPart_flip (bits : BitVec 64) : signPart (flip bits) = ~~~signPart bits := by
  rw [signPart, flip, UnpackedFloat.unpackSign_packComponents]
  generalize signPart bits = sign
  revert sign
  decide

theorem toNat_flip (bits : BitVec 64) :
    (flip bits).toNat % 2 ^ 63 = bits.toNat % 2 ^ 63 ∧
      (flip bits).toNat / 2 ^ 63 = 1 - bits.toNat / 2 ^ 63 := by
  have mantissa := congrArg BitVec.toNat (mantissaPart_flip bits)
  have exponent := congrArg BitVec.toNat (exponentPart_flip bits)
  have sign := congrArg BitVec.toNat (signPart_flip bits)
  rw [toNat_mantissaPart, toNat_mantissaPart] at mantissa
  rw [toNat_exponentPart, toNat_exponentPart] at exponent
  rw [BitVec.toNat_not, toNat_signPart, toNat_signPart] at sign
  omega

theorem unpack_flip (bits : BitVec 64) :
    UnpackedFloat.unpack Format.binary64 (flip bits) =
      (UnpackedFloat.unpack Format.binary64 bits).neg := by
  simp only [UnpackedFloat.unpack, flip, UnpackedFloat.unpackMantissa_packComponents,
    UnpackedFloat.unpackExponent_packComponents, UnpackedFloat.unpackSign_packComponents,
    UnpackedFloat.Sign.ofBitVec_toBitVec]
  split
  · split <;> rfl
  · split
    · split <;> rfl
    · rfl

section

variable {x : Float} (finite : x.isFinite = true)

include finite

theorem pattern_neg : pattern (-x) = flip (pattern x) := by
  have packed : pattern (-x) = UnpackedFloat.pack Format.binary64 (unpacked x).neg := rfl
  have low := isFinite_iff_exponentPart.mp finite
  -- What is no number has one pattern only, so its sign cannot be flipped.
  have isNumber : ¬@UnpackedFloat.isNaNBits Format.binary64 (flip (pattern x)) = true := by
    intro isNaN
    simp only [UnpackedFloat.isNaNBits, decide_eq_true_eq] at isNaN
    exact low ((exponentPart_flip _).symm.trans isNaN.1)
  rw [packed, unpacked_eq, ← unpack_flip, UnpackedFloat.pack_unpack, if_neg isNumber]

theorem unpacked_neg : unpacked (-x) = (unpacked x).neg := by
  rw [unpacked_eq, pattern_neg finite, unpack_flip, unpacked_eq]

theorem magnitudeBits_neg : magnitudeBits (-x) = magnitudeBits x := by
  have flipped := (toNat_flip (pattern x)).1
  rw [← pattern_neg finite] at flipped
  exact flipped

theorem isNegative_neg : isNegative (-x) = !isNegative x := by
  have flipped := congrArg (fun sign => sign != 0#1) (signPart_flip (pattern x))
  rw [← pattern_neg finite] at flipped
  rw [isNegative_eq, isNegative_eq, flipped]
  generalize signPart (pattern x) = sign
  revert sign
  decide

theorem isFinite_neg : (-x).isFinite = true := by
  rw [isFinite_iff, magnitudeBits_neg finite]
  exact isFinite_iff.mp finite

theorem neg_neg : - -x = x := by
  have other := isFinite_neg finite
  rw [← assemble_eq (- -x), isNegative_neg other, isNegative_neg finite, Bool.not_not,
    magnitudeBits_neg other, magnitudeBits_neg finite, assemble_eq]

/-- Without its sign bit a pattern is that of the number or of its opposite. -/
theorem assemble_magnitudeBits :
    assemble false (magnitudeBits x) = if isNegative x then -x else x := by
  cases sign : isNegative x with
  | false =>
    have whole := assemble_eq x
    rwa [sign] at whole
  | true =>
    have whole := assemble_eq (-x)
    rwa [isNegative_neg finite, sign, magnitudeBits_neg finite] at whole

end

/-! ### Significands -/

/-- The significand and the exponent of a finite number: the exponent is the least that leaves the
significand within fifty-three binary digits. -/
structure IsCanonical (mantissa : Nat) (exponent : Int) : Prop where
  least : -1074 ≤ exponent
  below : mantissa < 2 ^ 53
  full : 2 ^ 52 ≤ mantissa ∨ exponent = -1074

theorem binade_eq : binade = 2 ^ 52 := rfl

theorem leastExponent_eq : leastExponent = -1074 := rfl

/-- The significand and the exponent that a finite pattern is read as. -/
theorem isCanonical_of_bits (bits : Nat) : IsCanonical (significand bits) (exponent bits) := by
  have least := leastExponent_eq
  rw [significand, exponent, least, binade_eq]
  by_cases low : bits < 2 ^ 52
  · rw [if_pos low, if_pos low]
    exact ⟨le_rfl, by omega, .inr rfl⟩
  · rw [if_neg low, if_neg low]
    exact ⟨by omega, by omega, .inl (by omega)⟩

/-- A pattern counts the significands below its own. -/
theorem bits_eq (bits : Nat) :
    (exponent bits - leastExponent).toNat * binade + significand bits = bits := by
  have least := leastExponent_eq
  rw [significand, exponent, least, binade_eq]
  by_cases low : bits < 2 ^ 52
  · rw [if_pos low, if_pos low]
    omega
  · rw [if_neg low, if_neg low]
    omega

theorem significand_pos {bits : Nat} (nonzero : bits ≠ 0) : 0 < significand bits := by
  rw [significand, binade_eq]
  split <;> omega

end LinearSystem.Binary64
