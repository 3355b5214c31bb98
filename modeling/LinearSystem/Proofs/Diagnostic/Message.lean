import LinearSystem.Grammar.Rules
import LinearSystem.Proofs.Lexical.Lexeme
import LinearSystem.Token.Stream
/-!
Messages take one line.

A message names a character by its code point unless it is printable, and quotes of the source only
a numeral whose value is out of range (`Literal.inNumeral_of_outOfRange`). So there is no line feed
in the message of a refusal (`Lexeme.feed_notMem_message`) nor in that of a violation.
-/
namespace LinearSystem

open Text

/-! ### Characters in messages -/

theorem Text.feed_notMem_append {front back : String} (noFront : '\n' ∉ front.toList)
    (noBack : '\n' ∉ back.toList) : '\n' ∉ (front ++ back).toList := by
  rw [String.toList_append, List.mem_append, not_or]
  exact ⟨noFront, noBack⟩

theorem Text.feed_notMem_paddedHex (width n : Nat) :
    '\n' ∉ (paddedHex width n).toUpper.toList := by
  have digit {d : Nat} (small : d < 16) : (Nat.digitChar d).toUpper ≠ '\n' := by
    have each : ∀ d : Fin 16, (Nat.digitChar d).toUpper ≠ '\n' := by decide
    exact each ⟨d, small⟩
  have digits (n : Nat) : ∀ c ∈ Nat.toDigits 16 n, c.toUpper ≠ '\n' := by
    -- The last digit comes off the end, and the others are those of a smaller number.
    induction n using Nat.strong_induction_on with
    | _ n ih =>
      by_cases small : n < 16
      · rw [Nat.toDigits_of_lt_base small]
        simpa using digit small
      · rw [Nat.toDigits_of_base_le (by decide) (by omega), List.forall_mem_append]
        refine ⟨ih (n / 16) (by omega), ?_⟩
        simpa using digit (Nat.mod_lt n (by decide))
  have zero : '0'.toUpper ≠ '\n' := by decide
  intro feed
  simp only [paddedHex, String.toUpper, String.toList_map, String.toList_ofList, List.leftpad,
    List.mem_map, List.mem_append, List.mem_replicate] at feed
  obtain ⟨c, ⟨-, rfl⟩ | member, same⟩ := feed
  · exact zero same
  · exact digits n c member same

theorem Text.feed_notMem_describe (found : Option Char) : '\n' ∉ (describe found).toList := by
  cases found with
  | none => decide
  | some c =>
    rw [describe]
    split
    next printable =>
      rw [String.toList_singleton, List.mem_singleton]
      rintro rfl
      cases printable
    next => exact feed_notMem_append (by decide) (feed_notMem_paddedHex 4 c.toNat)

theorem Grammar.Violation.feed_notMem_message (violation : Violation) :
    '\n' ∉ violation.message.toList := by
  cases violation <;> decide +kernel

/-- A cause holds text of the source only if it names a numeral. -/
theorem LexicalCause.feed_notMem_message {cause : LexicalCause}
    (numeral : ∀ literal, cause = .outOfRange literal → '\n' ∉ literal.toList) :
    '\n' ∉ cause.message.toList := by
  cases cause with
  | expectedDigit found | digitAfterZero found | danglingCharacter found
  | invalidCharacter found => exact feed_notMem_append (by decide +kernel) (feed_notMem_describe _)
  | outOfRange literal => exact feed_notMem_append (by decide +kernel) (numeral literal rfl)
  | lessThan | greaterThan => decide +kernel

namespace Literal

variable {text literal : List Char} {seen : Nat} {refusal : Refusal}

theorem cause_of_takeDigits (refused : takeDigits seen text = .error refusal) :
    refusal.cause = .expectedDigit text.head? := by
  unfold takeDigits at refused
  split at refused
  · cases refused
    rfl
  · cases refused

theorem cause_of_takeWhole (refused : takeWhole text = .error refusal) :
    (∃ found, refusal.cause = .digitAfterZero found) ∨
      ∃ found, refusal.cause = .expectedDigit found := by
  unfold takeWhole at refused
  split at refused
  · cases refused
  · split at refused
    · cases refused
      exact .inl ⟨_, rfl⟩
    · cases refused
  · exact .inr ⟨_, cause_of_takeDigits refused⟩

theorem cause_of_takeFraction (refused : takeFraction seen text = .error refusal) :
    ∃ found, refusal.cause = .expectedDigit found := by
  unfold takeFraction at refused
  split at refused
  next after =>
    cases digits : takeDigits (seen + 1) after with
    | ok part =>
      rw [digits] at refused
      cases refused
    | error found =>
      rw [digits] at refused
      cases refused
      exact ⟨_, cause_of_takeDigits digits⟩
  · cases refused

theorem cause_of_takeExponent (refused : takeExponent seen text = .error refusal) :
    ∃ found, refusal.cause = .expectedDigit found := by
  unfold takeExponent at refused
  split at refused
  · cases refused
  next mark after =>
    split at refused
    · cases digits : takeDigits (seen + 1 + (takeSign after).1.length) (takeSign after).2 with
      | ok part =>
        simp only [digits] at refused
        cases refused
      | error found =>
        simp only [digits] at refused
        cases refused
        exact ⟨_, cause_of_takeDigits digits⟩
    · cases refused

theorem cause_of_takeParts (refused : takeParts text = .error refusal) :
    (∃ found, refusal.cause = .digitAfterZero found) ∨
      ∃ found, refusal.cause = .expectedDigit found := by
  unfold takeParts at refused
  split at refused
  next wholeRefused =>
    cases refused
    exact cause_of_takeWhole wholeRefused
  · split at refused
    next fractionRefused =>
      cases refused
      exact .inr (cause_of_takeFraction fractionRefused)
    · split at refused
      next exponentRefused =>
        cases refused
        exact .inr (cause_of_takeExponent exponentRefused)
      · cases refused

/-- What is refused for its value is a numeral. -/
theorem inNumeral_of_outOfRange {literal : String} (refused : take text = .error refusal)
    (value : refusal.cause = .outOfRange literal) : ∀ c ∈ literal.toList, inNumeral c = true := by
  unfold take at refused
  split at refused
  next partsRefused =>
    cases refused
    rcases cause_of_takeParts partsRefused with ⟨found, other⟩ | ⟨found, other⟩ <;>
      simp [value] at other
  next partsTaken =>
    dsimp only at refused
    split at refused
    · cases refused
      cases value
    next free =>
      split at refused
      · cases refused
      · cases refused
        cases value
        obtain ⟨-, parts, -⟩ := takeParts_iff.mp ⟨partsTaken, free⟩
        rw [String.toList_ofList]
        exact parts.inNumeral

end Literal

/-- Why a lexeme is refused takes one line. -/
theorem Lexeme.feed_notMem_message {first : Char} {rest : List Char} {refusal : Refusal}
    (refused : Lexeme.read first rest = .error refusal) :
    '\n' ∉ refusal.cause.message.toList := by
  apply LexicalCause.feed_notMem_message
  intro literal value
  unfold Lexeme.read at refused
  split at refused
  · cases refused
  · cases refused
  · cases refused
  · cases refused
    cases value
  · cases refused
    cases value
  · split at refused
    · cases refused
    · split at refused
      · cases taken : Literal.take (first :: rest) with
        | ok part =>
          rw [taken] at refused
          cases refused
        | error found =>
          rw [taken] at refused
          cases refused
          have numeral := Literal.inNumeral_of_outOfRange taken value
          exact fun feed => absurd (numeral '\n' feed) (by decide)
      · split at refused
        · cases refused
        · cases refused
          cases value

end LinearSystem
