import LinearSystem.Proofs.Lexical.Reading
/-!
Stars replaced by spaces.

A star is a lexeme of one byte and one column, and a space is layout of one byte and one column that
no lexeme runs into. So a source that can be read is read with spaces for its stars as well, and its
tokens are then the same, at the same places, but for those of the stars
(`Chain.ofSource_blankStars`).
-/
namespace LinearSystem

namespace Text

/-- A text with a space for every star. -/
def blankStars (text : List Char) : List Char := text.map fun c => if c = '*' then ' ' else c

theorem blankStars_of_notMem {text : List Char} (noStar : '*' ∉ text) :
    blankStars text = text := by
  have kept : ∀ c ∈ text, (if c = '*' then ' ' else c) = c :=
    fun c member => if_neg (ne_of_mem_of_not_mem member noStar)
  rw [blankStars, List.map_congr_left kept, List.map_id']

theorem blankStars_append (first second : List Char) :
    blankStars (first ++ second) = blankStars first ++ blankStars second :=
  List.map_append

/-- What halts at a text halts at it without its stars, if it halts at spaces. -/
theorem Halts.blankStars {accepts : Char → Bool} {text : List Char} (halts : Halts accepts text)
    (space : accepts ' ' = false) : Halts accepts (blankStars text) := by
  cases text with
  | nil => rfl
  | cons c rest =>
    rw [halts_cons] at halts
    rw [Text.blankStars, List.map_cons, halts_cons]
    split
    · exact space
    · exact halts

end Text

open Text

/-! ### Layout goes on -/

/-- A blank after layout is passed over last: no line end has a blank in it. -/
theorem skipLayout_append_blank (cursor : Cursor) {gap : List Char}
    (layout : ∀ c ∈ gap, isLayout c = true) {c : Char} (blank : isBlank c = true)
    (rest : List Char) :
    skipLayout cursor (gap ++ c :: rest) = skipLayout ((cursor.over gap).past [c]) rest := by
  unfold Cursor.over
  -- What is passed over in front of the blank is passed over in the same steps without it.
  fun_induction skipLayout cursor gap with
  | case1 cursor => exact skipLayout_blank cursor blank rest
  | case2 cursor gap ih =>
    exact ih fun other member => layout other (by simp [member])
  | case3 cursor gap noFeed ih =>
    -- The carriage return is a line end by itself with the blank after the layout as well.
    have single : (gap ++ c :: rest).head? ≠ some '\n' := by
      intro feed
      cases gap with
      | nil =>
        obtain rfl : c = '\n' := by simpa using feed
        cases blank
      | cons first gap =>
        obtain rfl : first = '\n' := by simpa using feed
        exact noFeed gap rfl
    rw [List.cons_append, skipLayout_return cursor single]
    exact ih fun other member => layout other (by simp [member])
  | case4 cursor gap ih =>
    exact ih fun other member => layout other (by simp [member])
  | case5 cursor first gap noBoth noReturn noFeed firstBlank ih =>
    rw [List.cons_append, skipLayout_blank cursor firstBlank]
    exact ih fun other member => layout other (by simp [member])
  | case6 cursor first gap noBoth noReturn noFeed noBlank =>
    have firstLayout := layout first List.mem_cons_self
    simp_all [isLayout]

namespace Token

/-- What is read depends on what is left after the layout. -/
theorem readAll_congr {cursor cursor' : Cursor} {text text' : List Char}
    (same : skipLayout cursor text = skipLayout cursor' text') :
    readAll cursor text = readAll cursor' text' := by
  have front : read cursor text = read cursor' text' := by
    unfold read
    rw [same]
  rw [readAll_eq, readAll_eq, front]

/-- Without its stars a text is read as its other lexemes. -/
theorem readAll_blankStars (cursor : Cursor) {gap : List Char} {body : Spaced}
    (layout : ∀ c ∈ gap, isLayout c = true) (formed : body.WellFormed) :
    readAll cursor (gap ++ blankStars body.text) =
      ((body.tokens cursor gap).filter (·.kind ≠ .times), none) := by
  induction body generalizing cursor gap with
  | nil => exact readAll_complete cursor layout formed
  | cons spaced rest ih =>
    obtain ⟨⟨kind, text⟩, next⟩ := spaced
    have halts := formed.halts_runsInto
    obtain ⟨spelled, nextLayout, free, laterFormed⟩ := formed
    have later := ih ((cursor.over gap).past text) nextLayout laterFormed
    -- A star is a lexeme by itself, and neither layout nor any other lexeme has one in it.
    have noStar : blankStars next = next :=
      blankStars_of_notMem (notMem_of_class rfl nextLayout)
    have body : blankStars (Spaced.text ((⟨kind, text⟩, next) :: rest)) =
        blankStars text ++ (next ++ blankStars (Spaced.text rest)) := by
      rw [Spaced.text, blankStars_append, blankStars_append, noStar]
    rw [body, Spaced.tokens]
    by_cases isStar : kind = .times
    · subst isStar
      obtain rfl : text = ['*'] := spelled
      -- The space continues the layout, and takes the cursor as far as the star.
      have skipped := @skipLayout_append_blank cursor gap layout ' ' rfl
        (next ++ blankStars (Spaced.text rest))
      exact (readAll_congr skipped).trans later
    · have kept : blankStars text = text :=
        blankStars_of_notMem (Lexeme.notMem_of_symbol rfl rfl rfl rfl spelled isStar)
      -- Where a star stood directly after the lexeme there is a space now, and it halts there too.
      have stops : Halts (Lexeme.runsInto ⟨kind, text⟩)
          (next ++ blankStars (Spaced.text rest)) := by
        cases next with
        | nil => exact (free rfl).blankStars (Lexeme.runsInto_of_isLayout _ rfl)
        | cons c next => exact halts
      have more : kind ≠ .endOfInput := Lexeme.IsSpelled.kind_ne_end spelled
      rw [kept, readAll_eq, read_lexeme cursor layout spelled stops]
      simp [later, unlinked, more, isStar]

end Token

/-- Without its stars a source is read as its other tokens. -/
theorem Chain.ofSource_blankStars {source : String} {chain : Chain}
    (read : ofSource source = .ok chain) :
    ∃ others, ofSource (String.ofList (blankStars source.toList)) = .ok others ∧
      others.toList.map Token.content =
        (chain.toList.filter (·.kind ≠ .times)).map Token.content := by
  obtain ⟨reading, rfl⟩ := ofSource_eq_ok.mp read
  have whole : blankStars source.toList = reading.lead ++ blankStars reading.body.text := by
    rw [reading.whole, blankStars_append,
      blankStars_of_notMem (notMem_of_class rfl reading.layout)]
  have all := Token.readAll_blankStars .start reading.layout reading.formed
  rw [← whole] at all
  refine ⟨_, by rw [ofSource_eq, String.toList_ofList, all], ?_⟩
  -- Links are no part of what a token is, and neither do they make it a star.
  have contents (tokens : List Token) : (tokens.filter (·.kind ≠ .times)).map Token.content =
      (tokens.map Token.content).filter (·.kind ≠ .times) := by
    rw [List.filter_map]
    rfl
  rw [contents, map_content_link, map_content_link, ← contents]
  rfl

end LinearSystem
