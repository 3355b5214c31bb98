import LinearSystem.Decimal.Numeral
import LinearSystem.Proofs.Lexical.Literal
import Mathlib.Algebra.Field.Rat
import Mathlib.Tactic.FieldSimp
import Mathlib.Tactic.Ring
/-!
Reading the parts of a numeral.

What is taken off a source as a numeral can be read as one, whichever of its parts are left out
(`Numeral.ofText?_parts`). The decimal that is read has the value that the digits and the exponent
stand for (`Literal.exactValue_eq`).
-/
namespace LinearSystem

open Literal Text

/-! ### Values -/

namespace Literal

/-- What an exponent with its mark stands for; no text is the exponent zero. -/
def exponentValue : List Char → Int
  | [] => 0
  | _ :: '-' :: digits => -(Nat.ofDigitChars 10 digits 0 : Int)
  | _ :: '+' :: digits => Nat.ofDigitChars 10 digits 0
  | _ :: digits => Nat.ofDigitChars 10 digits 0

/-- The number that a numeral stands for: the whole number and the digits behind the point, scaled
by its exponent. -/
def exactValue (whole fraction exponent : List Char) : ℚ :=
  ((Nat.ofDigitChars 10 whole 0 : ℚ) +
    (Nat.ofDigitChars 10 fraction.tail 0 : ℚ) / 10 ^ fraction.tail.length) *
      10 ^ exponentValue exponent

/-- The decimal that a numeral says: the digits behind the point are counted as part of the whole
number, in smaller units. -/
def decimal (whole fraction exponent : List Char) : Decimal where
  mantissa := Nat.ofDigitChars 10 (whole ++ fraction.tail) 0
  exponent := exponentValue exponent - fraction.tail.length

theorem exactValue_eq (whole fraction exponent : List Char) :
    exactValue whole fraction exponent = ((decimal whole fraction exponent).mantissa : ℚ) *
      10 ^ (decimal whole fraction exponent).exponent := by
  have shifted := @Nat.ofDigitChars_eq_ofDigitChars_zero fraction.tail (Nat.ofDigitChars 10 whole 0)
  rw [exactValue, decimal, Nat.ofDigitChars_append, shifted, zpow_sub₀ (by norm_num), zpow_natCast]
  push_cast
  field_simp

theorem exponentValue_unsigned (mark : Char) {digits : List Char}
    (noMinus : digits.head? ≠ some '-') (noPlus : digits.head? ≠ some '+') :
    exponentValue (mark :: digits) = Nat.ofDigitChars 10 digits 0 := by
  rw [exponentValue]
  · rintro rest rfl
    exact noMinus rfl
  · rintro rest rfl
    exact noPlus rfl

end Literal

theorem Literal.IsWhole.isDigits {whole : List Char} (isWhole : IsWhole whole) :
    IsDigits whole := by
  rcases isWhole with rfl | ⟨isDigits, -⟩
  · exact ⟨by simp, by simp⟩
  · exact isDigits

/-! ### Texts -/

namespace Numeral

theorem splitSign_unsigned {text : List Char} (noMinus : text.head? ≠ some '-')
    (noPlus : text.head? ≠ some '+') : splitSign text = (false, text) := by
  unfold splitSign
  split
  · exact absurd rfl noMinus
  · exact absurd rfl noPlus
  · rfl

theorem head?_ne_of_isDigits {digits : List Char} (isDigits : IsDigits digits) (c : Char)
    (noDigit : c.isDigit = false) : digits.head? ≠ some c := by
  intro first
  have digit := isDigits.2 c (List.mem_of_head? first)
  rw [noDigit] at digit
  cases digit

theorem readDigits?_eq {digits : List Char} (isDigits : IsDigits digits) :
    readDigits? digits = some (Nat.ofDigitChars 10 digits 0) := by
  obtain ⟨nonempty, inside⟩ := isDigits
  simp [readDigits?, nonempty, List.all_eq_true.mpr inside]

theorem readExponent?_eq {exponent : List Char} (isExponent : exponent = [] ∨ IsExponent exponent) :
    readExponent? exponent = some (exponentValue exponent) := by
  rcases isExponent with rfl | ⟨mark, sign, digits, rfl, marks, isSign, isDigits⟩
  · rfl
  · have marked : (mark == 'e' || mark == 'E') = true := marks
    rcases isSign with rfl | rfl | rfl
    · have noMinus := head?_ne_of_isDigits isDigits '-' rfl
      have noPlus := head?_ne_of_isDigits isDigits '+' rfl
      rw [List.nil_append, exponentValue_unsigned mark noMinus noPlus]
      simp [readExponent?, marked, splitSign_unsigned noMinus noPlus, readDigits?_eq isDigits]
    · simp [readExponent?, marked, splitSign, readDigits?_eq isDigits, exponentValue]
    · simp [readExponent?, marked, splitSign, readDigits?_eq isDigits, exponentValue]

/-- No digit comes where an exponent may. -/
theorem halts_isDigit_exponent {exponent : List Char}
    (isExponent : exponent = [] ∨ IsExponent exponent) : Halts Char.isDigit exponent := by
  rcases isExponent with rfl | ⟨mark, sign, digits, rfl, marks, -⟩
  · rfl
  · rw [halts_cons, ← Bool.not_eq_true]
    intro digit
    rw [marksExponent_of_isDigit digit] at marks
    cases marks

/-- What follows the digits before the point is split into a fraction and an exponent. -/
theorem splitFraction_append {fraction exponent : List Char}
    (isFraction : fraction = [] ∨ IsFraction fraction)
    (isExponent : exponent = [] ∨ IsExponent exponent) :
    splitFraction (fraction ++ exponent) = (fraction.tail, exponent) := by
  rcases isFraction with rfl | ⟨digits, rfl, isDigits⟩
  · have noPoint : ∀ rest, exponent ≠ '.' :: rest := by
      rintro rest rfl
      rcases isExponent with none | ⟨mark, sign, digits, same, marks, -⟩
      · cases none
      · cases same
        cases marks
    rw [List.nil_append, splitFraction]
    · rfl
    · exact noPoint
  · obtain ⟨taken, left⟩ := span_iff.mpr ⟨rfl, isDigits.2, halts_isDigit_exponent isExponent⟩
    rw [List.cons_append, splitFraction, taken, left]
    rfl

/-- The parts of a numeral are read as a decimal. -/
theorem readMagnitude?_parts {whole fraction exponent : List Char}
    (isWhole : ∀ c ∈ whole, c.isDigit = true) (isFraction : fraction = [] ∨ IsFraction fraction)
    (nonempty : whole ≠ [] ∨ fraction ≠ []) (isExponent : exponent = [] ∨ IsExponent exponent) :
    readMagnitude? (whole ++ fraction ++ exponent) = some (decimal whole fraction exponent) := by
  have halts : Halts Char.isDigit (fraction ++ exponent) := by
    rcases isFraction with rfl | ⟨digits, rfl, -⟩
    · exact halts_isDigit_exponent isExponent
    · rfl
  obtain ⟨taken, left⟩ := span_iff.mpr ⟨List.append_assoc whole fraction exponent, isWhole, halts⟩
  have digits : (whole.isEmpty && fraction.tail.isEmpty) = false := by
    rcases isFraction with rfl | ⟨digits, rfl, isDigits⟩
    · simpa using nonempty
    · simpa using fun _ => isDigits.1
  simp only [readMagnitude?, taken, left, splitFraction_append isFraction isExponent, digits,
    Bool.false_eq_true, if_false, readExponent?_eq isExponent, Option.map_some, decimal]

/-- A text that has the parts of a numeral is read as one, without a sign. -/
theorem ofText?_parts {whole fraction exponent : List Char}
    (parts : HasParts whole fraction exponent) :
    ofText? (whole ++ fraction ++ exponent) =
      some (.finite false (decimal whole fraction exponent)) := by
  obtain ⟨first, rest, text, numeral⟩ := parts.exists_startsNumeral
  obtain ⟨isWhole, isFraction, nonempty, isExponent⟩ := parts
  have digits : ∀ c ∈ whole, c.isDigit = true := by
    rcases isWhole with rfl | isWhole
    · exact List.forall_mem_nil _
    · exact isWhole.isDigits.2
  have unsigned : splitSign (whole ++ fraction ++ exponent) =
      (false, whole ++ fraction ++ exponent) := by
    rw [text]
    apply splitSign_unsigned
    · rintro ⟨⟩
      cases numeral
    · rintro ⟨⟩
      cases numeral
  simp only [ofText?, unsigned, readMagnitude?_parts digits isFraction nonempty isExponent]

end Numeral

theorem Literal.isFinite_parts {whole fraction exponent : List Char}
    (parts : HasParts whole fraction exponent) :
    isFinite (whole ++ fraction ++ exponent) = true ↔
      Binary64.nearest (decimal whole fraction exponent) < Binary64.infinityBits := by
  rw [isFinite, Numeral.ofText?_parts parts, decide_eq_true_eq]

end LinearSystem
