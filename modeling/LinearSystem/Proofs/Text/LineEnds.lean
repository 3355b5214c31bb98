import Mathlib.Data.List.TakeWhile
/-!
Line ends of one style.

A text whose line ends are unified has a line feed for every line end (`unifyLineEnds`). Within a
line it is the text itself, so what is cut off its front by a class of characters without line ends
is the same (`takeWhile_unifyLineEnds`), and unifying what is left comes to the same as cutting the
unified text (`dropWhile_unifyLineEnds`).
-/
namespace LinearSystem.Text

/-- Puts a line feed for every carriage return, and one for both together. -/
def unifyLineEnds : List Char → List Char
  | [] => []
  | '\r' :: '\n' :: rest => '\n' :: unifyLineEnds rest
  | '\r' :: rest => '\n' :: unifyLineEnds rest
  | c :: rest => c :: unifyLineEnds rest

/-- Puts a line feed for a carriage return. -/
def unifyReturn (c : Char) : Char := if c = '\r' then '\n' else c

@[simp] theorem unifyLineEnds_nil : unifyLineEnds [] = [] := rfl

theorem unifyLineEnds_cons {c : Char} (noReturn : c ≠ '\r') (rest : List Char) :
    unifyLineEnds (c :: rest) = c :: unifyLineEnds rest := by
  rw [unifyLineEnds]
  · exact fun after same => absurd same noReturn
  · exact noReturn

/-- A carriage return is a line end by itself where no line feed follows. -/
theorem unifyLineEnds_return {rest : List Char} (single : ∀ after, rest ≠ '\n' :: after) :
    unifyLineEnds ('\r' :: rest) = '\n' :: unifyLineEnds rest := by
  rw [unifyLineEnds]
  exact single

theorem exists_unifyLineEnds_return (rest : List Char) :
    ∃ others, unifyLineEnds ('\r' :: rest) = '\n' :: others := by
  unfold unifyLineEnds
  split
  next same => cases same
  next => exact ⟨_, rfl⟩
  next => exact ⟨_, rfl⟩
  next noReturn same =>
    cases same
    exact absurd rfl noReturn

theorem head?_unifyLineEnds (text : List Char) :
    (unifyLineEnds text).head? = text.head?.map unifyReturn := by
  cases text with
  | nil => rfl
  | cons c rest =>
    by_cases isReturn : c = '\r'
    · subst isReturn
      obtain ⟨others, starts⟩ := exists_unifyLineEnds_return rest
      rw [starts]
      rfl
    · simp [unifyLineEnds_cons isReturn, unifyReturn, isReturn]

theorem head?_unifyLineEnds_eq_some {c : Char} (noReturn : c ≠ '\r') (noFeed : c ≠ '\n')
    (text : List Char) : (unifyLineEnds text).head? = some c ↔ text.head? = some c := by
  rw [head?_unifyLineEnds, Option.map_eq_some_iff]
  constructor
  · rintro ⟨other, starts, same⟩
    by_cases isReturn : other = '\r'
    · simp [unifyReturn, isReturn, Ne.symm noFeed] at same
    · simpa [starts, unifyReturn, isReturn] using same
  · intro starts
    exact ⟨c, starts, by simp [unifyReturn, noReturn]⟩

section

variable {accepts : Char → Bool} (noReturn : accepts '\r' = false) (noFeed : accepts '\n' = false)

include noReturn noFeed

theorem filter_head?_unifyLineEnds (text : List Char) :
    (unifyLineEnds text).head?.filter accepts = text.head?.filter accepts := by
  rw [head?_unifyLineEnds]
  cases text with
  | nil => rfl
  | cons c rest =>
    by_cases isReturn : c = '\r' <;> simp [Option.filter, unifyReturn, isReturn, noReturn, noFeed]

theorem takeWhile_unifyLineEnds (text : List Char) :
    (unifyLineEnds text).takeWhile accepts = text.takeWhile accepts := by
  induction text with
  | nil => rfl
  | cons c rest ih =>
    -- Both texts halt the class at a line end, whatever follows it.
    by_cases isReturn : c = '\r'
    · subst isReturn
      obtain ⟨others, starts⟩ := exists_unifyLineEnds_return rest
      simp [starts, noReturn, noFeed]
    · simp [unifyLineEnds_cons isReturn, List.takeWhile_cons, ih]

theorem dropWhile_unifyLineEnds (text : List Char) :
    (unifyLineEnds text).dropWhile accepts = unifyLineEnds (text.dropWhile accepts) := by
  induction text with
  | nil => rfl
  | cons c rest ih =>
    by_cases isReturn : c = '\r'
    · subst isReturn
      obtain ⟨others, starts⟩ := exists_unifyLineEnds_return rest
      simp [starts, noReturn, noFeed]
    · by_cases accepted : accepts c
      · simp [unifyLineEnds_cons isReturn, accepted, ih]
      · simp [unifyLineEnds_cons isReturn, accepted]

end

end LinearSystem.Text
