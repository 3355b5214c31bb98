/-!
Decimal numbers without sign, as a whole number of units that are powers of ten, and the ratio of
whole numbers that such a decimal is equal to.
-/
namespace LinearSystem

/-- The number `mantissa * 10 ^ exponent`. -/
structure Decimal where
  mantissa : Nat
  exponent : Int
  deriving DecidableEq, Repr

namespace Decimal

/-- Moves the point of a ratio: `ratio / 10 ^ exponent`, without division. -/
def divTenPow (ratio : Nat × Nat) (exponent : Int) : Nat × Nat :=
  (ratio.1 * Nat.pow 10 (-exponent).toNat, ratio.2 * Nat.pow 10 exponent.toNat)

/-- The decimal as numerator and denominator. -/
def ratio (decimal : Decimal) : Nat × Nat :=
  divTenPow (decimal.mantissa, 1) (-decimal.exponent)

/-- The number of decimal digits of a whole number. -/
def digitCount (n : Nat) : Nat := (Nat.toDigits 10 n).length

end Decimal

end LinearSystem
