import LinearSystem.Decimal.Layout
import LinearSystem.Proofs.Decimal.ReadBack
import LinearSystem.Proofs.Decimal.Reading
/-!
Decimals written without an exponent.

What is written is a numeral of digits with at most one point among them, and it is read as a
decimal of the same value. So the shortest decimal of a finite pattern, written in this way, is read
as the number of this pattern (`isNumeralOf_shortest`).
-/
namespace LinearSystem

open Literal

namespace Decimal

open Binary64

/-! ### Writing digits -/

theorem isDigits_toDigits (n : Nat) : IsDigits (Nat.toDigits 10 n) := by
  refine ⟨Nat.toDigits_ne_nil, ?_⟩
  intro c member
  exact Nat.isDigit_of_mem_toDigits (by decide) (by decide) member

theorem ofDigitChars_toDigits (n : Nat) : Nat.ofDigitChars 10 (Nat.toDigits 10 n) 0 = n :=
  Nat.ofDigitChars_toDigits (by decide) (by decide)

/-- A number that is not zero is written without a leading zero. -/
theorem head?_toDigits {n : Nat} (nonzero : n ≠ 0) : (Nat.toDigits 10 n).head? ≠ some '0' := by
  induction n using Nat.strong_induction_on with
  | _ n ih =>
    by_cases single : n < 10
    · rw [Nat.toDigits_of_lt_base single]
      revert nonzero
      interval_cases n <;> decide
    · -- The first digit is that of the number without its last digit.
      have first := ih (n / 10) (by omega) (by omega)
      rw [Nat.toDigits_of_base_le (by decide) (by omega),
        List.head?_append_of_ne_nil _ Nat.toDigits_ne_nil]
      exact first

/-- Zeros after the digits of a whole number. -/
theorem isWhole_append_zeros {n count : Nat} (places : n = 0 → count = 0) :
    IsWhole (Nat.toDigits 10 n ++ List.replicate count '0') := by
  by_cases zero : n = 0
  · left
    simp [zero, places zero]
  · right
    refine ⟨⟨by simp, ?_⟩, ?_⟩
    · intro c member
      rcases List.mem_append.mp member with digit | zero
      · exact (isDigits_toDigits n).2 c digit
      · rw [List.eq_of_mem_replicate zero]
        decide
    · rw [List.head?_append_of_ne_nil _ Nat.toDigits_ne_nil]
      exact head?_toDigits zero

theorem ofDigitChars_append_zeros (n count : Nat) :
    Nat.ofDigitChars 10 (Nat.toDigits 10 n ++ List.replicate count '0') 0 = n * 10 ^ count := by
  rw [Nat.ofDigitChars_append, ofDigitChars_toDigits, Nat.ofDigitChars_replicate_zero, Nat.mul_comm]

theorem length_leftpad (places : Nat) (digits : List Char) :
    (List.leftpad (places + 1) '0' digits).length = max (places + 1) digits.length :=
  List.length_leftpad

theorem isDigit_of_mem_leftpad {count : Nat} {digits : List Char} (isDigits : IsDigits digits)
    {c : Char} (member : c ∈ List.leftpad count '0' digits) : c.isDigit = true := by
  rw [List.leftpad, List.mem_append] at member
  rcases member with zero | digit
  · rw [List.eq_of_mem_replicate zero]
    decide
  · exact isDigits.2 c digit

/-- Before the point stand the first digits, or a zero where all digits are behind it. -/
theorem isWhole_take_leftpad {digits : List Char} (isDigits : IsDigits digits)
    (first : digits.head? ≠ some '0') (places : Nat) :
    IsWhole ((List.leftpad (places + 1) '0' digits).take
      ((List.leftpad (places + 1) '0' digits).length - places)) := by
  rw [length_leftpad]
  by_cases short : digits.length ≤ places
  · -- The digits are filled up with zeros, of which one stands before the point.
    obtain ⟨count, enough⟩ : ∃ count, places + 1 - digits.length = count + 1 :=
      ⟨places - digits.length, by omega⟩
    have one : max (places + 1) digits.length - places = 1 := by omega
    left
    rw [one, List.leftpad, enough, List.replicate_succ, List.cons_append, List.take_succ_cons,
      List.take_zero]
  · have full : List.leftpad (places + 1) '0' digits = digits := by
      rw [List.leftpad, Nat.sub_eq_zero_of_le (by omega), List.replicate_zero, List.nil_append]
    have some : max (places + 1) digits.length - places ≠ 0 := by omega
    right
    rw [full]
    refine ⟨⟨?_, fun c member => isDigits.2 c (List.mem_of_mem_take member)⟩, ?_⟩
    · simpa [some] using isDigits.1
    · rwa [List.head?_take, if_neg some]

/-- Digits with a point before the last of them are a whole number and a fraction. -/
theorem exists_pointed {n places : Nat} (nonzero : n ≠ 0) :
    ∃ whole fraction, pointed (Nat.toDigits 10 n) places = whole ++ '.' :: fraction ∧
      IsWhole whole ∧ (∀ c ∈ fraction, c.isDigit = true) ∧ fraction.length = places ∧
      Nat.ofDigitChars 10 (whole ++ fraction) 0 = n := by
  have isDigits := isDigits_toDigits n
  refine ⟨_, _, rfl, isWhole_take_leftpad isDigits (head?_toDigits nonzero) places, ?_, ?_, ?_⟩
  · intro c member
    exact isDigit_of_mem_leftpad isDigits (List.mem_of_mem_drop member)
  · rw [List.length_drop, length_leftpad]
    omega
  · rw [List.take_append_drop, List.leftpad, Nat.ofDigitChars_append,
      Nat.ofDigitChars_replicate_zero, Nat.mul_zero, ofDigitChars_toDigits]

/-! ### Numerals of patterns -/

/-- A numeral without exponent that is read as the number of a pattern. -/
structure IsNumeralOf (text : List Char) (bits : Nat) : Prop where
  literal : IsLiteral text
  plain : hasExponent text = false
  value : (Numeral.ofText? text).map Numeral.toFloat = some (assemble false bits)

theorem isNumeralOf_parts {whole fraction : List Char} {bits : Nat} (isWhole : IsWhole whole)
    (isFraction : fraction = [] ∨ IsFraction fraction)
    (same : nearest (decimal whole fraction []) = bits) (finite : bits < infinityBits) :
    IsNumeralOf (whole ++ fraction) bits := by
  have parts : HasParts whole fraction [] :=
    ⟨.inr isWhole, isFraction, .inl isWhole.isDigits.1, .inl rfl⟩
  have text := Numeral.ofText?_parts parts
  have exponent := hasExponent_of_parts parts
  have isFinite := (isFinite_parts parts).mpr (same ▸ finite)
  rw [List.append_nil] at text exponent isFinite
  refine ⟨⟨⟨_, _, _, (List.append_nil _).symm, parts⟩, isFinite⟩, exponent, ?_⟩
  rw [text, Option.map_some, Numeral.toFloat, same]

/-- Zeros at the end of a whole number stand for powers of ten. -/
theorem nearest_mul_pow {mantissa : Nat} {exponent : Int} (whole : 0 ≤ exponent)
    (small : exponent ≤ 400) :
    nearest ⟨mantissa * 10 ^ exponent.toNat, 0⟩ = nearest ⟨mantissa, exponent⟩ := by
  have none : (-exponent).toNat = 0 := by omega
  rw [nearest_of_clampExponent (by dsimp only; omega) (by dsimp only; omega),
    nearest_of_clampExponent (by dsimp only; omega) small, ratio_eq, ratio_eq]
  simp only [none, Int.toNat_zero, Int.neg_zero, Nat.pow_zero, Nat.mul_one]

/-- The shortest decimal of a finite pattern, written without an exponent, is a numeral of it. -/
theorem isNumeralOf_shortest (tie : Tie) {bits : Nat} (finite : bits < infinityBits) :
    IsNumeralOf ((shortest tie bits).positional "").toList bits := by
  have readsBack := nearest_shortest tie finite
  have small := @exponent_shortest_le tie bits finite
  have places := @exponent_shortest_of_mantissa_eq_zero tie bits finite
  generalize shortest tie bits = decimal at *
  obtain ⟨mantissa, exponent⟩ := decimal
  dsimp only at small places
  -- Zeros are written after a whole number, and a point among the digits of any other.
  by_cases whole : 0 ≤ exponent
  · have text : (positional "" ⟨mantissa, exponent⟩).toList =
        Nat.toDigits 10 mantissa ++ List.replicate exponent.toNat '0' := by
      simp [positional, whole]
    have isWhole : IsWhole (Nat.toDigits 10 mantissa ++ List.replicate exponent.toNat '0') :=
      isWhole_append_zeros fun zero => by rw [places zero, Int.toNat_zero]
    rw [text, ← List.append_nil (_ ++ _)]
    apply isNumeralOf_parts isWhole (.inl rfl) _ finite
    rw [decimal, List.tail_nil, List.append_nil, ofDigitChars_append_zeros]
    exact (nearest_mul_pow whole small).trans readsBack
  · have nonzero : mantissa ≠ 0 := by
      intro zero
      exact whole (places zero).ge
    obtain ⟨front, fraction, pointed, isWhole, digits, length, value⟩ :=
      @exists_pointed mantissa (-exponent).toNat nonzero
    have text : (positional "" ⟨mantissa, exponent⟩).toList = front ++ '.' :: fraction := by
      simp [positional, whole, pointed]
    have isDigits : IsDigits fraction := by
      refine ⟨List.ne_nil_of_length_pos ?_, digits⟩
      omega
    have count : -((-exponent).toNat : Int) = exponent := by omega
    rw [text]
    apply isNumeralOf_parts isWhole (.inr ⟨fraction, rfl, isDigits⟩) _ finite
    rw [decimal, List.tail_cons, value, length, exponentValue, Int.zero_sub, count]
    exact readsBack

end Decimal

end LinearSystem
