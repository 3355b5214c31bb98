import LinearSystem.Decimal.Shortest
/-!
Written forms of numerals. A `NumeralStyle` holds every decision of a form: which way a tie between
two shortest decimals goes, which numbers are written without an exponent, what marks a whole
number, and the words for values that no decimal has.
-/
namespace LinearSystem

/-- The decisions of one written form of numbers. -/
structure NumeralStyle where
  tie : Tie
  /-- Whether a number whose first digit stands for this power of ten needs no exponent. -/
  isPositional : Int → Bool
  /-- What follows the digits of a whole number that has no exponent. -/
  wholeMark : String
  infinity : String
  minusInfinity : String
  notANumber : String

namespace Decimal

/-- The power of ten that the first digit stands for; zero for the number zero. -/
def leadingExponent (decimal : Decimal) : Int :=
  if decimal.mantissa = 0 then 0
  else (digitCount decimal.mantissa : Int) - 1 + decimal.exponent

/-- The digits with a point before the last `places` of them, and zeros to reach that far. -/
def pointed (digits : List Char) (places : Nat) : List Char :=
  -- At least one digit stays in front of the point.
  let padded := List.leftpad (places + 1) '0' digits
  padded.take (padded.length - places) ++ '.' :: padded.drop (padded.length - places)

/-- Written with a point where one is needed and no exponent. -/
def positional (wholeMark : String) (decimal : Decimal) : String :=
  let digits := Nat.toDigits 10 decimal.mantissa
  if 0 ≤ decimal.exponent then
    String.ofList (digits ++ List.replicate decimal.exponent.toNat '0') ++ wholeMark
  else String.ofList (pointed digits (-decimal.exponent).toNat)

/-- Written with one digit before the point and a signed exponent. -/
def withExponent (decimal : Decimal) : String :=
  let digits := Nat.toDigits 10 decimal.mantissa
  let power := decimal.leadingExponent
  let fraction := if digits.length = 1 then [] else '.' :: digits.drop 1
  String.ofList (digits.take 1 ++ fraction) ++ (if power < 0 then "e-" else "e+")
    ++ toString power.natAbs

end Decimal

namespace NumeralStyle

/-- Writes a numeral. -/
def writeNumeral (style : NumeralStyle) : Numeral → String
  | .finite negative magnitude =>
    let digits :=
      if style.isPositional magnitude.leadingExponent then magnitude.positional style.wholeMark
      else magnitude.withExponent
    if negative then "-" ++ digits else digits
  | .infinite negative => if negative then style.minusInfinity else style.infinity
  | .nan => style.notANumber

/-- Writes a floating-point number with the fewest digits that read back to it. -/
def write (style : NumeralStyle) (x : Float) : String :=
  style.writeNumeral (Numeral.ofFloat style.tie x)

end NumeralStyle

end LinearSystem
