import LinearSystem.Text.Lines
/-!
Lines as they are quoted and lines as they are numbered.

Reading a source counts a carriage return as a line end wherever it stands (`numberedLines`), and
quoting a line only directly before a line feed (`lines`). As long as no carriage return is left
over in the quoted lines, both find the same line under a number (`getD_lines_eq`).
-/
namespace LinearSystem.Text

/-- Splits a text at a line feed, at a carriage return, and at both in this order taken as one. What
follows the last of them is a line too, even if it is empty. -/
def numberedLines : List Char → List (List Char)
  | [] => [[]]
  | '\r' :: '\n' :: rest => [] :: numberedLines rest
  | '\r' :: rest => [] :: numberedLines rest
  | '\n' :: rest => [] :: numberedLines rest
  | c :: rest => (numberedLines rest).modifyHead (c :: ·)

/-! ### Numbered lines -/

/-- A carriage return is a line end by itself where no line feed follows. -/
theorem numberedLines_return {rest : List Char} (single : ∀ after, rest ≠ '\n' :: after) :
    numberedLines ('\r' :: rest) = [] :: numberedLines rest := by
  rw [numberedLines]
  exact single

theorem numberedLines_cons {c : Char} (noReturn : c ≠ '\r') (noFeed : c ≠ '\n')
    (rest : List Char) :
    numberedLines (c :: rest) = (numberedLines rest).modifyHead (c :: ·) := by
  rw [numberedLines]
  · exact fun after same => absurd same noReturn
  · exact noReturn
  · exact noFeed

theorem numberedLines_ne_nil (text : List Char) : numberedLines text ≠ [] := by
  fun_induction numberedLines text with
  | case1 => simp
  | case2 => simp
  | case3 => simp
  | case4 => simp
  | case5 c rest _ _ _ ih => simpa using ih

theorem length_numberedLines_pos (text : List Char) : 0 < (numberedLines text).length :=
  List.length_pos_iff.mpr (numberedLines_ne_nil text)

@[simp] theorem modifyHead_nil_append (lines : List (List Char)) :
    lines.modifyHead ([] ++ ·) = lines := by
  cases lines <;> rfl

/-- Text without line ends stands on the line of what follows it. -/
theorem numberedLines_append {front : List Char} (plain : ∀ c ∈ front, c ≠ '\r' ∧ c ≠ '\n')
    (rest : List Char) :
    numberedLines (front ++ rest) = (numberedLines rest).modifyHead (front ++ ·) := by
  induction front with
  | nil => exact (modifyHead_nil_append (numberedLines rest)).symm
  | cons c front ih =>
    obtain ⟨⟨noReturn, noFeed⟩, others⟩ := List.forall_mem_cons.mp plain
    rw [List.cons_append, numberedLines_cons noReturn noFeed, ih others,
      List.modifyHead_modifyHead]
    rfl

theorem length_numberedLines_append {front : List Char}
    (plain : ∀ c ∈ front, c ≠ '\r' ∧ c ≠ '\n') (rest : List Char) :
    (numberedLines (front ++ rest)).length = (numberedLines rest).length := by
  rw [numberedLines_append plain, List.length_modifyHead]

/-! ### Quoted lines -/

theorem feed_notMem_lines (text : List Char) : ∀ line ∈ lines text, '\n' ∉ line := by
  fun_induction lines text with
  | case1 => simp
  | case2 rest ih => simpa using ih
  | case3 rest ih => simpa using ih
  | case4 c rest _ noFeed none _ => simpa using Ne.symm noFeed
  | case5 c rest _ noFeed line others cut ih =>
    rw [cut] at ih
    obtain ⟨first, further⟩ := List.forall_mem_cons.mp ih
    refine List.forall_mem_cons.mpr ⟨?_, further⟩
    simpa [first] using Ne.symm noFeed

theorem eq_nil_of_lines {text : List Char} (none : lines text = []) : text = [] := by
  fun_induction lines text with
  | case1 => rfl
  | case2 => cases none
  | case3 => cases none
  | case4 => cases none
  | case5 => cases none

/-- Without carriage returns in the lines up to a number, the quoted line of that number is the
numbered one. -/
theorem getD_lines_eq {text : List Char} {place : Nat}
    (plain : ∀ line ∈ (lines text).take (place + 1), '\r' ∉ line) :
    (lines text)[place]?.getD [] = (numberedLines text)[place]?.getD [] := by
  fun_induction lines text generalizing place with
  | case1 => cases place <;> simp [numberedLines]
  | case2 rest ih =>
    cases place with
    | zero => rfl
    | succ place => exact ih (List.forall_mem_cons.mp plain).2
  | case3 rest ih =>
    cases place with
    | zero => rfl
    | succ place => exact ih (List.forall_mem_cons.mp plain).2
  | case4 c rest _ noFeed none _ =>
    obtain rfl := eq_nil_of_lines none
    have noReturn : c ≠ '\r' := by simpa [eq_comm] using plain
    rw [numberedLines_cons noReturn noFeed]
    rfl
  | case5 c rest _ noFeed line others cut ih =>
    obtain ⟨first, further⟩ := List.forall_mem_cons.mp plain
    rw [List.mem_cons, not_or] at first
    rw [numberedLines_cons (Ne.symm first.1) noFeed]
    -- The first line of the rest is continued by the character, all others stay as they are.
    cases place with
    | zero =>
      have same := @ih 0 (by simpa [cut] using first.2)
      cases counted : numberedLines rest with
      | nil => exact absurd counted (numberedLines_ne_nil rest)
      | cons head tail => simpa [cut, counted] using same
    | succ place =>
      have plain : ∀ other ∈ (line :: others).take (place + 2), '\r' ∉ other :=
        List.forall_mem_cons.mpr ⟨first.2, further⟩
      have same := @ih (place + 1) (by rwa [cut])
      cases counted : numberedLines rest with
      | nil => exact absurd counted (numberedLines_ne_nil rest)
      | cons head tail => simpa [cut, counted] using same

end LinearSystem.Text
