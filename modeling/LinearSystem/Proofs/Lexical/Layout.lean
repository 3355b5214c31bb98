import LinearSystem.Proofs.Lexical.Lexeme
import LinearSystem.Token.Stream
/-!
Layout, and that passing over it is cutting off the longest prefix of it.

Line ends are taken apart only for lines and columns. What is passed over is a longest prefix of
one class of characters (`skipLayout_eq`), of which no lexeme starts with any and into which none
runs.
-/
namespace LinearSystem

open Text

/-- Blanks and the characters of line ends. -/
def Text.isLayout (c : Char) : Bool := isBlank c || c == '\r' || c == '\n'

/-- The place after layout. -/
def Cursor.over (cursor : Cursor) (gap : List Char) : Cursor := (skipLayout cursor gap).1

/-- A carriage return is a line end by itself where no line feed follows. -/
theorem skipLayout_return (cursor : Cursor) {rest : List Char} (single : rest.head? ≠ some '\n') :
    skipLayout cursor ('\r' :: rest) = skipLayout (cursor.nextLine 1) rest := by
  rw [skipLayout]
  rintro after rfl
  exact single rfl

theorem isLayout_iff {c : Char} :
    isLayout c = true ↔ c = '\uFEFF' ∨ c = '\t' ∨ c = ' ' ∨ c = '\r' ∨ c = '\n' := by
  simp [isLayout, isBlank, or_assoc]

theorem skipLayout_blank (cursor : Cursor) {c : Char} (blank : isBlank c = true)
    (rest : List Char) : skipLayout cursor (c :: rest) = skipLayout (cursor.past [c]) rest := by
  rw [skipLayout]
  · simp [blank]
  · rintro after rfl; cases blank
  · rintro rfl; cases blank
  · rintro rfl; cases blank

theorem isLayout_of_isBlank {c : Char} (blank : isBlank c = true) : isLayout c = true := by
  simp [isLayout, blank]

theorem skipLayout_eq (cursor : Cursor) (text : List Char) :
    skipLayout cursor text =
      (cursor.over (text.takeWhile isLayout), text.dropWhile isLayout) := by
  unfold Cursor.over
  fun_induction skipLayout cursor text with
  | case1 => rfl
  | case2 cursor rest ih => exact ih
  | case3 cursor rest noFeed ih =>
    -- No line feed follows, neither in the rest nor in the layout that is cut off it.
    have single : (rest.takeWhile isLayout).head? ≠ some '\n' := by
      intro feed
      rw [List.head?_takeWhile, Option.filter_eq_some_iff] at feed
      obtain ⟨after, same⟩ := List.head?_eq_some_iff.mp feed.1
      exact noFeed after same
    have layout : isLayout '\r' = true := rfl
    rw [ih, List.takeWhile_cons_of_pos layout, List.dropWhile_cons_of_pos layout,
      skipLayout_return cursor single]
  | case4 cursor rest ih => exact ih
  | case5 cursor c rest noBoth noReturn noFeed blank ih =>
    have layout := isLayout_of_isBlank blank
    rw [ih, List.takeWhile_cons_of_pos layout, List.dropWhile_cons_of_pos layout,
      skipLayout_blank cursor blank]
  | case6 cursor c rest noBoth noReturn noFeed noBlank =>
    have noLayout : isLayout c = false := by simp_all [isLayout]
    simp [noLayout, skipLayout]

theorem utf8Length_cons (c : Char) (rest : List Char) :
    utf8Length (c :: rest) = c.utf8Size + utf8Length rest := rfl

/-- The bytes that are passed over are those that are gone from the text. -/
theorem offset_skipLayout (cursor : Cursor) (text : List Char) :
    (skipLayout cursor text).1.offset + utf8Length (skipLayout cursor text).2 =
      cursor.offset + utf8Length text := by
  have feed : '\n'.utf8Size = 1 := rfl
  have return' : '\r'.utf8Size = 1 := rfl
  fun_induction skipLayout cursor text with
  | case1 => rfl
  | case2 cursor rest ih =>
    rw [ih]
    simp only [Cursor.nextLine, utf8Length_cons, feed, return']
    omega
  | case3 cursor rest noFeed ih =>
    rw [ih]
    simp only [Cursor.nextLine, utf8Length_cons, return']
    omega
  | case4 cursor rest ih =>
    rw [ih]
    simp only [Cursor.nextLine, utf8Length_cons, feed]
    omega
  | case5 cursor c rest noBoth noReturn noFeed blank ih =>
    have nothing : utf8Length [] = 0 := rfl
    rw [ih]
    simp only [Cursor.past, utf8Length_cons, nothing]
    omega
  | case6 => rfl

theorem skipLayout_append (cursor : Cursor) {gap rest : List Char}
    (layout : ∀ c ∈ gap, isLayout c = true) (halts : Halts isLayout rest) :
    skipLayout cursor (gap ++ rest) = (cursor.over gap, rest) := by
  obtain ⟨taken, left⟩ := span_iff.mpr ⟨rfl, layout, halts⟩
  rw [skipLayout_eq, taken, left]

theorem skipLayout_of_isLayout_eq_false (cursor : Cursor) {c : Char}
    (noLayout : isLayout c = false) (rest : List Char) :
    skipLayout cursor (c :: rest) = (cursor, c :: rest) :=
  skipLayout_append cursor (List.forall_mem_nil _) (halts_cons.mpr noLayout)

theorem Cursor.offset_over (cursor : Cursor) {gap : List Char}
    (layout : ∀ c ∈ gap, isLayout c = true) :
    (cursor.over gap).offset = cursor.offset + utf8Length gap := by
  have skipped := skipLayout_append cursor layout (halts_nil isLayout)
  have bytes := offset_skipLayout cursor (gap ++ [])
  rw [skipped, List.append_nil] at bytes
  exact bytes

theorem layout_unique {gap gap' rest rest' : List Char} (layout : ∀ c ∈ gap, isLayout c = true)
    (layout' : ∀ c ∈ gap', isLayout c = true) (halts : Halts isLayout rest)
    (halts' : Halts isLayout rest') (same : gap ++ rest = gap' ++ rest') :
    gap = gap' ∧ rest = rest' := by
  obtain ⟨taken, left⟩ := span_iff.mpr ⟨rfl, layout, halts⟩
  obtain ⟨taken', left'⟩ := span_iff.mpr ⟨same, layout', halts'⟩
  exact ⟨taken.symm.trans taken', left.symm.trans left'⟩

/-! ### Layout and lexemes -/

/-- A class that has none of the layout has no layout. -/
theorem isLayout_eq_false (accepts : Char → Bool)
    (none : ['\uFEFF', '\t', ' ', '\r', '\n'].any accepts = false) {c : Char}
    (accepted : accepts c = true) : isLayout c = false := by
  by_contra layout
  simp only [List.any_cons, List.any_nil, Bool.or_false, Bool.or_eq_false_iff] at none
  rcases isLayout_iff.mp (by simpa using layout) with rfl | rfl | rfl | rfl | rfl <;>
    simp_all

theorem Lexeme.IsSpelled.kind_ne_end {lexeme : Lexeme} (spelled : lexeme.IsSpelled) :
    lexeme.kind ≠ .endOfInput := by
  intro ended
  rw [IsSpelled, ended] at spelled
  exact spelled

/-- There is no layout inside a lexeme. -/
theorem Lexeme.IsSpelled.forall_isLayout_eq_false {lexeme : Lexeme} (spelled : lexeme.IsSpelled) :
    ∀ c ∈ lexeme.text, isLayout c = false := by
  obtain ⟨kind, text⟩ := lexeme
  cases kind with
  | startOfInput | endOfInput => cases spelled
  | plus | minus | times | comma =>
    obtain rfl : text = _ := spelled
    simp [isLayout, isBlank]
  | relation relation =>
    cases relation <;> rcases spelled with rfl | rfl <;> simp [isLayout, isBlank]
  | coefficient =>
    obtain ⟨⟨whole, fraction, exponent, rfl, parts⟩, -⟩ := spelled
    exact fun c member =>
      isLayout_eq_false Literal.inNumeral rfl (parts.inNumeral c member)
  | name =>
    obtain ⟨first, rest, rfl, starts, continues⟩ := spelled
    refine List.forall_mem_cons.mpr ⟨isLayout_eq_false startsName rfl starts, ?_⟩
    exact fun c member =>
      isLayout_eq_false continuesName rfl (continues c member)

/-- No lexeme starts with layout. -/
theorem Lexeme.IsSpelled.exists_cons {lexeme : Lexeme} (spelled : lexeme.IsSpelled) :
    ∃ first rest, lexeme.text = first :: rest ∧ isLayout first = false := by
  obtain ⟨kind, text⟩ := lexeme
  cases kind with
  | startOfInput | endOfInput => cases spelled
  | plus | minus | times | comma =>
    obtain rfl : text = _ := spelled
    exact ⟨_, _, rfl, rfl⟩
  | relation relation =>
    cases relation <;> rcases spelled with rfl | rfl <;> exact ⟨_, _, rfl, rfl⟩
  | coefficient =>
    obtain ⟨first, rest, rfl, numeral⟩ := Literal.exists_startsNumeral spelled
    exact ⟨first, rest, rfl, isLayout_eq_false startsNumeral rfl numeral⟩
  | name =>
    obtain ⟨first, rest, rfl, name, -⟩ := spelled
    exact ⟨first, rest, rfl, isLayout_eq_false startsName rfl name⟩

theorem Lexeme.runsInto_of_isLayout (lexeme : Lexeme) {c : Char} (layout : isLayout c = true) :
    lexeme.runsInto c = false := by
  by_contra runs
  have none : ['\uFEFF', '\t', ' ', '\r', '\n'].any lexeme.runsInto = false := by
    unfold Lexeme.runsInto
    split
    · cases Literal.hasExponent lexeme.text <;> rfl
    · rfl
    · simp
    · rfl
  have noLayout := isLayout_eq_false lexeme.runsInto none (by simpa using runs)
  rw [layout] at noLayout
  cases noLayout

end LinearSystem
