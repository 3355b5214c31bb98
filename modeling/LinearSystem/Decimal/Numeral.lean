import LinearSystem.Decimal.Basic
/-!
Numerals: what the text of a number says, before anything is rounded.

A numeral is an optional sign followed by digits with at most one point among, before or after
them, at least one digit in all, and an optional exponent; or by `inf`, `infinity` or `nan` in
letters of either case. Nothing else is a numeral: no blanks, no separators, no empty text.
-/
namespace LinearSystem

/-- A signed decimal, or one of the two values that no decimal has. -/
inductive Numeral where
  | finite (negative : Bool) (magnitude : Decimal)
  | infinite (negative : Bool)
  | nan
  deriving DecidableEq, Repr

namespace Numeral

/-- Takes an optional sign off a text; the flag says that it was a minus. -/
def splitSign : List Char → Bool × List Char
  | '-' :: rest => (true, rest)
  | '+' :: rest => (false, rest)
  | text => (false, text)

/-- Reads a whole text as digits, of which there must be one. -/
def readDigits? (text : List Char) : Option Nat :=
  if !text.isEmpty && text.all Char.isDigit then some (Nat.ofDigitChars 10 text 0) else none

/-- Reads a whole text as an exponent with its mark; an empty text is the exponent zero. -/
def readExponent? : List Char → Option Int
  | [] => some 0
  | mark :: rest =>
    if mark == 'e' || mark == 'E' then
      let (negative, digits) := splitSign rest
      (readDigits? digits).map fun n => if negative then -(n : Int) else n
    else none

/-- The digits after a point in front of the text, and what follows them. -/
def splitFraction : List Char → List Char × List Char
  | '.' :: rest => (rest.takeWhile Char.isDigit, rest.dropWhile Char.isDigit)
  | text => ([], text)

/-- Reads a whole text as a decimal without sign. -/
def readMagnitude? (text : List Char) : Option Decimal :=
  let whole := text.takeWhile Char.isDigit
  let (fraction, rest) := splitFraction (text.dropWhile Char.isDigit)
  if whole.isEmpty && fraction.isEmpty then none
  else (readExponent? rest).map fun exponent =>
    { mantissa := Nat.ofDigitChars 10 (whole ++ fraction) 0
      exponent := exponent - fraction.length }

/-- Reads a whole text as one of the words for values that no decimal has. -/
def readWord? (negative : Bool) (text : List Char) : Option Numeral :=
  match String.ofList (text.map Char.toLower) with
  | "inf" => some (infinite negative)
  | "infinity" => some (infinite negative)
  | "nan" => some nan
  | _ => none

/-- Reads a whole text as a numeral. -/
def ofText? (text : List Char) : Option Numeral :=
  let (negative, rest) := splitSign text
  match readMagnitude? rest with
  | some magnitude => some (finite negative magnitude)
  | none => readWord? negative rest

end Numeral

end LinearSystem
