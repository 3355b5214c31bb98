import LinearSystem.Proofs.Lexical.Literal
import LinearSystem.Token.Lexeme
/-!
What refusals name.

A refusal of a text names a place by the characters before it, and its cause says what stands there
(`LexicalCause.IsAbout`). Up to that place a numeral has been taken, as far as it went
(`Refusal.Names`), so the place is in the text or directly after it (`Lexeme.after_le_of_read`).
-/
namespace LinearSystem

/-- What a cause says is so of the text at the place that it is given for. -/
def LexicalCause.IsAbout (text : List Char) : LexicalCause → Prop
  | .expectedDigit found => text.head? = found
  | .digitAfterZero found | .danglingCharacter found | .invalidCharacter found =>
    text.head? = some found
  | .outOfRange literal => literal.toList <+: text
  | .lessThan => text.head? = some '<'
  | .greaterThan => text.head? = some '>'

/-- A refusal names a place in a text, which has characters of a numeral in front of the place. So
many characters have been seen before the text. -/
def Refusal.Names (refusal : Refusal) (seen : Nat) (text : List Char) : Prop :=
  ∃ front back, text = front ++ back ∧ refusal.after = seen + front.length ∧
    (∀ c ∈ front, Literal.inNumeral c = true) ∧ refusal.cause.IsAbout back

namespace Refusal

variable {refusal : Refusal} {seen : Nat} {front rest : List Char}

theorem names_here {cause : LexicalCause} (about : cause.IsAbout rest) :
    Names ⟨seen, cause⟩ seen rest :=
  ⟨[], rest, rfl, rfl, List.forall_mem_nil _, about⟩

theorem Names.behind (later : refusal.Names (seen + front.length) rest)
    (numeral : ∀ c ∈ front, Literal.inNumeral c = true) : refusal.Names seen (front ++ rest) := by
  obtain ⟨further, back, rfl, after, numeral', about⟩ := later
  refine ⟨front ++ further, back, by simp, ?_, ?_, about⟩
  · rw [after, List.length_append, Nat.add_assoc]
  · exact List.forall_mem_append.mpr ⟨numeral, numeral'⟩

end Refusal

namespace Literal

open Refusal

variable {refusal : Refusal} {seen : Nat} {text : List Char}

theorem names_of_takeDigits (refused : takeDigits seen text = .error refusal) :
    refusal.Names seen text := by
  unfold takeDigits at refused
  split at refused
  · cases refused
    exact names_here rfl
  · cases refused

theorem names_of_takeWhole (refused : takeWhole text = .error refusal) : refusal.Names 0 text := by
  unfold takeWhole at refused
  split at refused
  · cases refused
  next next rest =>
    split at refused
    · cases refused
      have digit : Names ⟨1, .digitAfterZero next⟩ (0 + ['0'].length) (next :: rest) :=
        names_here rfl
      exact digit.behind (by simp [inNumeral])
    · cases refused
  · exact names_of_takeDigits refused

theorem names_of_takeFraction (refused : takeFraction seen text = .error refusal) :
    refusal.Names seen text := by
  unfold takeFraction at refused
  split at refused
  next rest =>
    cases digits : takeDigits (seen + 1) rest with
    | error found =>
      rw [digits] at refused
      cases refused
      have behindPoint : refusal.Names (seen + ['.'].length) rest := names_of_takeDigits digits
      exact behindPoint.behind (by simp [inNumeral])
    | ok part =>
      rw [digits] at refused
      cases refused
  · cases refused

theorem names_of_takeExponent (refused : takeExponent seen text = .error refusal) :
    refusal.Names seen text := by
  unfold takeExponent at refused
  split at refused
  · cases refused
  next mark rest =>
    split at refused
    next marks =>
      cases digits : takeDigits (seen + 1 + (takeSign rest).1.length) (takeSign rest).2 with
      | error found =>
        simp only [digits] at refused
        cases refused
        -- The digits are missed behind the mark and, if there is one, the sign.
        have sign : ∀ c ∈ (takeSign rest).1, inNumeral c = true := by
          rcases isSign_takeSign rest with none | plus | minus
          · simp [none]
          · simp [plus, inNumeral]
          · simp [minus, inNumeral]
        have behindMark : refusal.Names (seen + [mark].length) rest := by
          rw [← takeSign_append rest]
          exact (names_of_takeDigits digits).behind sign
        exact behindMark.behind (by simp [inNumeral, marks])
      | ok part =>
        simp only [digits] at refused
        cases refused
    · cases refused

theorem inNumeral_of_takeWhole {whole rest : List Char}
    (taken : takeWhole text = .ok (whole, rest)) : ∀ c ∈ whole, inNumeral c = true := by
  obtain ⟨-, ⟨rfl, -⟩ | ⟨isWhole, -⟩⟩ := takeWhole_eq_ok.mp taken
  · exact List.forall_mem_nil _
  · exact isWhole.inNumeral

theorem inNumeral_of_takeFraction {fraction rest : List Char}
    (taken : takeFraction seen text = .ok (fraction, rest)) :
    ∀ c ∈ fraction, inNumeral c = true := by
  obtain ⟨-, ⟨rfl, -⟩ | ⟨isFraction, -⟩⟩ := takeFraction_eq_ok.mp taken
  · exact List.forall_mem_nil _
  · exact isFraction.inNumeral

theorem inNumeral_of_takeParts {whole fraction exponent rest : List Char}
    (taken : takeParts text = .ok (whole, fraction, exponent, rest)) :
    ∀ c ∈ whole ++ fraction ++ exponent, inNumeral c = true := by
  obtain ⟨_, _, wholeTaken, fractionTaken, exponentTaken⟩ := takeParts_eq_ok.mp taken
  rw [List.forall_mem_append, List.forall_mem_append]
  refine ⟨⟨inNumeral_of_takeWhole wholeTaken, inNumeral_of_takeFraction fractionTaken⟩, ?_⟩
  obtain ⟨-, ⟨rfl, -⟩ | ⟨isExponent, -⟩⟩ := takeExponent_eq_ok.mp exponentTaken
  · exact List.forall_mem_nil _
  · exact isExponent.inNumeral

theorem names_of_takeParts (refused : takeParts text = .error refusal) : refusal.Names 0 text := by
  unfold takeParts at refused
  split at refused
  next wholeRefused =>
    cases refused
    exact names_of_takeWhole wholeRefused
  next whole rest wholeTaken =>
    have inWhole := inNumeral_of_takeWhole wholeTaken
    rw [← takeWhole_append wholeTaken]
    split at refused
    next fractionRefused =>
      cases refused
      have behindWhole := names_of_takeFraction fractionRefused
      rw [← Nat.zero_add whole.length] at behindWhole
      exact behindWhole.behind inWhole
    next fraction left fractionTaken =>
      have inFraction := inNumeral_of_takeFraction fractionTaken
      rw [← takeFraction_append fractionTaken]
      split at refused
      next exponentRefused =>
        cases refused
        have behindFraction := (names_of_takeExponent exponentRefused).behind inFraction
        rw [← Nat.zero_add whole.length] at behindFraction
        exact behindFraction.behind inWhole
      · cases refused

theorem names_of_take (refused : take text = .error refusal) : refusal.Names 0 text := by
  unfold take at refused
  split at refused
  next partsRefused =>
    cases refused
    exact names_of_takeParts partsRefused
  next whole fraction exponent rest partsTaken =>
    have append := takeParts_append partsTaken
    have numeral := inNumeral_of_takeParts partsTaken
    dsimp only at refused
    split at refused
    next found dangles =>
      cases refused
      refine ⟨_, rest, append.symm, by simp, numeral, ?_⟩
      rw [dangling?_eq_filter] at dangles
      exact (Option.filter_eq_some_iff.mp dangles).1
    · split at refused
      · cases refused
      · cases refused
        refine names_here ?_
        rw [LexicalCause.IsAbout, String.toList_ofList]
        exact ⟨rest, append⟩

end Literal

namespace Lexeme

variable {first : Char} {rest : List Char} {refusal : Refusal}

theorem names_of_read (refused : read first rest = .error refusal) :
    refusal.Names 0 (first :: rest) := by
  unfold read at refused
  split at refused
  · cases refused
  · cases refused
  · cases refused
  · cases refused
    exact Refusal.names_here rfl
  · cases refused
    exact Refusal.names_here rfl
  · split at refused
    · cases refused
    · split at refused
      · cases taken : Literal.take (first :: rest) with
        | error found =>
          rw [taken] at refused
          cases refused
          exact Literal.names_of_take taken
        | ok part =>
          rw [taken] at refused
          cases refused
      · split at refused
        · cases refused
        · cases refused
          exact Refusal.names_here rfl

/-- A refusal names a place within the text, or directly after it. -/
theorem after_le_of_read (refused : read first rest = .error refusal) :
    refusal.after ≤ rest.length + 1 := by
  obtain ⟨front, back, whole, after, -, -⟩ := names_of_read refused
  have length := congrArg List.length whole
  rw [List.length_append, List.length_cons] at length
  omega

end Lexeme

end LinearSystem
