import LinearSystem.Proofs.Lexical.Lexeme
import LinearSystem.Proofs.Text.LineEnds
/-!
Lexemes of a text with unified line ends.

No lexeme has a line end in it, and a reader that halts at one line end halts at any. So from a text
with unified line ends the same is taken as from the text itself, and what is left is the rest with
unified line ends; or it is refused at the same place. Of the causes of a refusal only a missing
digit names what may be a line end (`Lexeme.read_unify`).
-/
namespace LinearSystem

open Text

/-- A cause that names a carriage return names a line feed instead. -/
def LexicalCause.unify : LexicalCause → LexicalCause
  | expectedDigit found => expectedDigit (found.map unifyReturn)
  | cause => cause

def Refusal.unify (refusal : Refusal) : Refusal := { refusal with cause := refusal.cause.unify }

/-- The outcome of a reader where the line ends of its text are unified. -/
def unifyOutcome {α : Type} : Except Refusal (α × List Char) → Except Refusal (α × List Char)
  | .error refusal => .error refusal.unify
  | .ok (taken, rest) => .ok (taken, unifyLineEnds rest)

namespace Literal

theorem takeDigits_unify (seen : Nat) (text : List Char) :
    takeDigits seen (unifyLineEnds text) = unifyOutcome (takeDigits seen text) := by
  unfold takeDigits
  rw [takeWhile_unifyLineEnds rfl rfl, dropWhile_unifyLineEnds rfl rfl, head?_unifyLineEnds]
  split <;> rfl

theorem takeWhole_unify (text : List Char) :
    takeWhole (unifyLineEnds text) = unifyOutcome (takeWhole text) := by
  have point := head?_unifyLineEnds_eq_some (c := '.') (by decide) (by decide) text
  have zero := head?_unifyLineEnds_eq_some (c := '0') (by decide) (by decide) text
  -- Which way a whole part is taken depends on its first character, which is no line end.
  by_cases isPoint : text.head? = some '.'
  · obtain ⟨rest, rfl⟩ := List.head?_eq_some_iff.mp isPoint
    rw [unifyLineEnds_cons (by decide)]
    exact congrArg (fun text => Except.ok ([], text)) (unifyLineEnds_cons (by decide) rest).symm
  · by_cases isZero : text.head? = some '0'
    · obtain ⟨rest, rfl⟩ := List.head?_eq_some_iff.mp isZero
      rw [unifyLineEnds_cons (by decide), takeWhole_zero, takeWhole_zero,
        filter_head?_unifyLineEnds rfl rfl]
      cases rest.head?.filter Char.isDigit <;> rfl
    · rw [takeWhole_other (mt point.mp isPoint) (mt zero.mp isZero),
        takeWhole_other isPoint isZero, takeDigits_unify]

theorem takeFraction_unify (seen : Nat) (text : List Char) :
    takeFraction seen (unifyLineEnds text) = unifyOutcome (takeFraction seen text) := by
  have point := head?_unifyLineEnds_eq_some (c := '.') (by decide) (by decide) text
  by_cases isPoint : text.head? = some '.'
  · obtain ⟨rest, rfl⟩ := List.head?_eq_some_iff.mp isPoint
    rw [unifyLineEnds_cons (by decide)]
    simp only [takeFraction, takeDigits_unify]
    cases takeDigits (seen + 1) rest <;> rfl
  · rw [takeFraction_other seen (mt point.mp isPoint), takeFraction_other seen isPoint]
    rfl

theorem takeSign_unify (text : List Char) :
    takeSign (unifyLineEnds text) = ((takeSign text).1, unifyLineEnds (takeSign text).2) := by
  have plus := head?_unifyLineEnds_eq_some (c := '+') (by decide) (by decide) text
  have minus := head?_unifyLineEnds_eq_some (c := '-') (by decide) (by decide) text
  by_cases isPlus : text.head? = some '+'
  · obtain ⟨rest, rfl⟩ := List.head?_eq_some_iff.mp isPlus
    rw [unifyLineEnds_cons (by decide)]
    rfl
  · by_cases isMinus : text.head? = some '-'
    · obtain ⟨rest, rfl⟩ := List.head?_eq_some_iff.mp isMinus
      rw [unifyLineEnds_cons (by decide)]
      rfl
    · rw [takeSign_other (mt plus.mp isPlus) (mt minus.mp isMinus),
        takeSign_other isPlus isMinus]

theorem takeExponent_unify (seen : Nat) (text : List Char) :
    takeExponent seen (unifyLineEnds text) = unifyOutcome (takeExponent seen text) := by
  cases head : text.head?.filter marksExponent with
  | none =>
    rw [takeExponent_other seen head, takeExponent_other seen]
    · rfl
    · rw [filter_head?_unifyLineEnds rfl rfl, head]
  | some mark =>
    obtain ⟨starts, marks⟩ := Option.filter_eq_some_iff.mp head
    obtain ⟨rest, rfl⟩ := List.head?_eq_some_iff.mp starts
    have noReturn : mark ≠ '\r' := by
      rintro rfl
      cases marks
    rw [unifyLineEnds_cons noReturn]
    simp only [takeExponent, marks, if_true, takeSign_unify, takeDigits_unify]
    cases takeDigits (seen + 1 + (takeSign rest).1.length) (takeSign rest).2 <;> rfl

theorem takeParts_unify (text : List Char) :
    takeParts (unifyLineEnds text) =
      match takeParts text with
      | .error refusal => .error refusal.unify
      | .ok (whole, fraction, exponent, rest) =>
        .ok (whole, fraction, exponent, unifyLineEnds rest) := by
  unfold takeParts
  rw [takeWhole_unify]
  cases takeWhole text with
  | error refusal => rfl
  | ok part =>
    simp only [unifyOutcome, takeFraction_unify]
    cases takeFraction part.1.length part.2 with
    | error refusal => rfl
    | ok next =>
      simp only [unifyOutcome, takeExponent_unify]
      cases takeExponent (part.1.length + next.1.length) next.2 <;> rfl

theorem dangling?_unify (has : Bool) (text : List Char) :
    dangling? has (unifyLineEnds text) = dangling? has text := by
  rw [dangling?_eq_filter, dangling?_eq_filter, filter_head?_unifyLineEnds] <;> cases has <;> rfl

theorem take_unify (text : List Char) :
    take (unifyLineEnds text) = unifyOutcome (take text) := by
  unfold take
  rw [takeParts_unify]
  cases takeParts text with
  | error refusal => rfl
  | ok parts =>
    obtain ⟨whole, fraction, exponent, rest⟩ := parts
    simp only [dangling?_unify]
    cases dangling? (!exponent.isEmpty) rest with
    | some found => rfl
    | none =>
      dsimp only
      split <;> rfl

end Literal

namespace Lexeme

theorem read_unify (first : Char) (rest : List Char) :
    read first (unifyLineEnds rest) = unifyOutcome (read first rest) := by
  by_cases plain : IsPlain first
  · rw [read_of_plain plain, read_of_plain plain]
    cases symbol? first with
    | some kind => rfl
    | none =>
      dsimp only
      by_cases numeral : startsNumeral first
      · have noReturn : first ≠ '\r' := by
          rintro rfl
          cases numeral
        rw [if_pos numeral, if_pos numeral, ← unifyLineEnds_cons noReturn, Literal.take_unify]
        cases Literal.take (first :: rest) <;> rfl
      · rw [if_neg numeral, if_neg numeral, takeWhile_unifyLineEnds rfl rfl,
          dropWhile_unifyLineEnds rfl rfl]
        split <;> rfl
  · -- An operator looks one character ahead, for an equals sign.
    have operator : first = '=' ∨ first = '<' ∨ first = '>' := by
      simpa only [IsPlain, not_and_or, not_not] using plain
    have equals := head?_unifyLineEnds_eq_some (c := '=') (by decide) (by decide) rest
    by_cases double : rest.head? = some '='
    · obtain ⟨others, rfl⟩ := List.head?_eq_some_iff.mp double
      rw [unifyLineEnds_cons (by decide)]
      rcases operator with rfl | rfl | rfl <;> rfl
    · obtain ⟨equal, less, greater⟩ := read_single double
      obtain ⟨equal', less', greater'⟩ := read_single (mt equals.mp double)
      rcases operator with rfl | rfl | rfl
      · rw [equal, equal']
        rfl
      · rw [less, less']
        rfl
      · rw [greater, greater']
        rfl

end Lexeme

end LinearSystem
