import LinearSystem.Decimal.Numeral
/-!
Binary floating-point numbers of 64 bits, seen as whole numbers of units that are powers of two.

The bit patterns of the numbers without sign count them in ascending order: zero is `0`, the number
`significand * 2 ^ exponent` in lowest unit is `(exponent + 1074) * 2 ^ 52 + significand`, and the
first pattern past the finite ones is `infinityBits`. Reading a numeral rounds to the nearest of
these numbers, a tie to the even one; from half a unit past the largest finite number on, it gives
infinity.
-/
namespace LinearSystem

namespace Binary64

/-- The patterns from one power of two to the next: `2 ^ 52` of them. -/
def binade : Nat := 1 <<< 52

/-- The pattern of infinity, one past the largest finite number. -/
def infinityBits : Nat := 2047 * binade

/-- The pattern of the value that is no number. -/
def nanBits : Nat := infinityBits + 1 <<< 51

/-- The pattern of the sign bit alone. -/
def signBit : Nat := 1 <<< 63

/-- The exponent of the smallest unit. -/
def leastExponent : Int := -1074

/-- Moves the binary point of a ratio: `ratio / 2 ^ exponent`, without division. -/
def divTwoPow (ratio : Nat × Nat) (exponent : Int) : Nat × Nat :=
  (ratio.1 <<< (-exponent).toNat, ratio.2 <<< exponent.toNat)

/-- The whole number nearest to `n / d`; a half goes to the even neighbour. -/
def roundHalfEven (n d : Nat) : Nat :=
  if 2 * (n % d) < d ∨ 2 * (n % d) = d ∧ n / d % 2 = 0 then n / d else n / d + 1

/-- The exponent of the unit in which a positive ratio is rounded: the least that leaves fewer than
54 binary digits before the point, though never below the smallest unit. -/
def unitExponent (n d : Nat) : Int :=
  -- The logarithms bound the ratio within a factor of four, so the estimate is at most one short.
  let estimate := max ((n.log2 : Int) - d.log2 - 53) leastExponent
  let scaled := divTwoPow (n, d) estimate
  if scaled.1 < scaled.2 <<< 53 then estimate else estimate + 1

/-- The pattern of the number nearest to the ratio `n / d`. -/
def nearestToRatio (n d : Nat) : Nat :=
  if n = 0 then 0
  else
    let exponent := unitExponent n d
    let scaled := divTwoPow (n, d) exponent
    -- A significand that is rounded up to the next power of two carries into the exponent by itself.
    min ((exponent - leastExponent).toNat * binade + roundHalfEven scaled.1 scaled.2) infinityBits

/-- Brings an exponent into the range that makes a difference: above it every number but zero is
past the largest finite one, below it every number is under half the smallest unit. -/
def clampExponent (decimal : Decimal) : Decimal :=
  { decimal with exponent := max (-(400 + (decimal.mantissa.log2 : Int))) (min decimal.exponent 400) }

/-- The pattern of the number nearest to a decimal. -/
def nearest (decimal : Decimal) : Nat :=
  let ratio := (clampExponent decimal).ratio
  nearestToRatio ratio.1 ratio.2

/-- The number that has a pattern and a sign. -/
def assemble (negative : Bool) (bits : Nat) : Float :=
  Float.ofBits (UInt64.ofNat (if negative then signBit + bits else bits))

/-- The pattern without its sign bit. -/
def magnitudeBits (x : Float) : Nat := x.toBits.toNat % signBit

/-- Whether the sign bit is set. -/
def isNegative (x : Float) : Bool := signBit ≤ x.toBits.toNat

/-- The number `significand * 2 ^ exponent` that a finite pattern stands for. -/
def significand (bits : Nat) : Nat :=
  if bits < binade then bits else binade + bits % binade

/-- The exponent of the unit that a finite pattern counts in. -/
def exponent (bits : Nat) : Int :=
  if bits < binade then leastExponent else (bits / binade : Nat) - 1 + leastExponent

/-- The finite number of a pattern as numerator and denominator. -/
def ratio (bits : Nat) : Nat × Nat := divTwoPow (significand bits, 1) (-exponent bits)

end Binary64

namespace Numeral

/-- The floating-point number nearest to what a numeral says. -/
def toFloat : Numeral → Float
  | finite negative magnitude => Binary64.assemble negative (Binary64.nearest magnitude)
  | infinite negative => Binary64.assemble negative Binary64.infinityBits
  | nan => Binary64.assemble false Binary64.nanBits

/-- Reads a text as a floating-point number. -/
def readFloat? (text : String) : Option Float := (ofText? text.toList).map toFloat

end Numeral

end LinearSystem
