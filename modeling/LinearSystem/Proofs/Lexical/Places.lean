import LinearSystem.Proofs.Lexical.Layout
import LinearSystem.Proofs.Lexical.Stream
import LinearSystem.Proofs.Text.Lines
/-!
The lines of places.

A cursor goes to the next line exactly where the text that is left loses a line, so the number of
its line and the number of lines that are left add up to the same all along (`Cursor.Passes`). Every
place that is named while a source is read is therefore on a line that the source has
(`Token.readAll_isOn`).
-/
namespace LinearSystem

open Text

/-- A place is on one of the lines of a text that starts at a cursor. -/
def Location.IsOn (location : Location) (cursor : Cursor) (text : List Char) : Prop :=
  cursor.location.line ≤ location.line ∧
    location.line < cursor.location.line + (numberedLines text).length

/-- A cursor went on by as many lines as the text after it lost. -/
structure Cursor.Passes (cursor : Cursor) (text : List Char) (after : Cursor)
    (rest : List Char) : Prop where
  further : cursor.location.line ≤ after.location.line
  balance : after.location.line + (numberedLines rest).length =
    cursor.location.line + (numberedLines text).length

namespace Cursor

theorem Passes.refl (cursor : Cursor) (text : List Char) : cursor.Passes text cursor text :=
  ⟨Nat.le_refl _, rfl⟩

theorem Passes.trans {first second third : Cursor} {text left rest : List Char}
    (one : first.Passes text second left) (two : second.Passes left third rest) :
    first.Passes text third rest :=
  ⟨one.further.trans two.further, two.balance.trans one.balance⟩

theorem passes_nextLine (cursor : Cursor) (bytes : Nat) {text rest : List Char}
    (ends : numberedLines text = [] :: numberedLines rest) :
    cursor.Passes text (cursor.nextLine bytes) rest := by
  refine ⟨Nat.le_succ _, ?_⟩
  simp only [ends, List.length_cons, nextLine]
  omega

theorem passes_past (cursor : Cursor) {front : List Char}
    (plain : ∀ c ∈ front, c ≠ '\r' ∧ c ≠ '\n') (rest : List Char) :
    cursor.Passes (front ++ rest) (cursor.past front) rest :=
  ⟨Nat.le_refl _, by rw [length_numberedLines_append plain rest, past]⟩

theorem passes_skipLayout (cursor : Cursor) (text : List Char) :
    cursor.Passes text (skipLayout cursor text).1 (skipLayout cursor text).2 := by
  fun_induction skipLayout cursor text with
  | case1 cursor => exact .refl cursor []
  | case2 cursor rest ih => exact (cursor.passes_nextLine 2 rfl).trans ih
  | case3 cursor rest noFeed ih =>
    exact (cursor.passes_nextLine 1 (numberedLines_return noFeed)).trans ih
  | case4 cursor rest ih => exact (cursor.passes_nextLine 1 rfl).trans ih
  | case5 cursor c rest noBoth noReturn noFeed blank ih =>
    -- A blank takes up a column and leaves the line as it is.
    have plain : ∀ other ∈ [c], other ≠ '\r' ∧ other ≠ '\n' := by
      simpa using ⟨noReturn, noFeed⟩
    exact (cursor.passes_past plain rest).trans ih
  | case6 cursor c rest => exact .refl cursor (c :: rest)

end Cursor

open Cursor

/-- The place of a cursor is on a line of the text after it, and of any text before. -/
theorem Cursor.Passes.isOn {cursor after : Cursor} {text rest : List Char}
    (passes : cursor.Passes text after rest) : after.location.IsOn cursor text := by
  have more := length_numberedLines_pos rest
  have balance := passes.balance
  exact ⟨passes.further, by omega⟩

theorem Cursor.Passes.isOn_of_isOn {cursor after : Cursor} {text rest : List Char}
    {location : Location} (passes : cursor.Passes text after rest)
    (later : location.IsOn after rest) : location.IsOn cursor text := by
  have below := later.2
  rw [passes.balance] at below
  exact ⟨passes.further.trans later.1, below⟩

theorem Lexeme.IsSpelled.ne_lineEnd {lexeme : Lexeme} (spelled : lexeme.IsSpelled) :
    ∀ c ∈ lexeme.text, c ≠ '\r' ∧ c ≠ '\n' := by
  intro c member
  have noLayout := spelled.forall_isLayout_eq_false c member
  constructor
  · rintro rfl
    cases noLayout
  · rintro rfl
    cases noLayout

namespace Token

/-- A token is on a line of the text that it is read from, and no line is lost. -/
theorem isOn_of_read {cursor after : Cursor} {text rest : List Char} {token : Token}
    (success : read cursor text = .ok (token, after, rest)) :
    token.location.IsOn cursor text ∧ cursor.Passes text after rest := by
  have skipped := cursor.passes_skipLayout text
  unfold read at success
  generalize skipLayout cursor text = layout at skipped success
  obtain ⟨place, left⟩ := layout
  dsimp only at skipped success
  split at success
  next =>
    cases success
    exact ⟨skipped.isOn, skipped⟩
  next first others =>
    split at success
    · cases success
    next lexeme after lexemeRead =>
      cases success
      -- No lexeme has a line end in it, so the line of the token is also that of what follows.
      obtain ⟨whole, spelled, -⟩ := Lexeme.read_eq_ok.mp lexemeRead
      rw [whole] at skipped
      exact ⟨skipped.isOn, skipped.trans (passes_past _ spelled.ne_lineEnd _)⟩

/-- A refusal is on the line of the lexeme that is refused. -/
theorem isOn_of_refused {cursor : Cursor} {text : List Char} {error : LexicalError}
    (refused : read cursor text = .error error) : error.place.location.IsOn cursor text := by
  have skipped := cursor.passes_skipLayout text
  unfold read at refused
  generalize skipLayout cursor text = layout at skipped refused
  obtain ⟨place, left⟩ := layout
  dsimp only at skipped refused
  split at refused
  · cases refused
  · split at refused
    · cases refused
      exact skipped.isOn
    · cases refused

/-- Every token of a text is on a line that the text has, and so is what is refused. -/
theorem readAll_isOn (cursor : Cursor) (text : List Char) :
    (∀ token ∈ (readAll cursor text).1, token.location.IsOn cursor text) ∧
      ∀ error, (readAll cursor text).2 = some error → error.place.location.IsOn cursor text := by
  fun_induction readAll cursor text with
  | case1 cursor text error refused =>
    refine ⟨by simp, ?_⟩
    rintro found ⟨⟩
    exact isOn_of_refused refused
  | case2 cursor text token after rest success last =>
    refine ⟨?_, by simp⟩
    simpa using (isOn_of_read success).1
  | case3 cursor text token after rest success notLast tokens error all ih =>
    obtain ⟨here, passes⟩ := isOn_of_read success
    rw [all] at ih
    constructor
    · refine List.forall_mem_cons.mpr ⟨here, ?_⟩
      exact fun later member => passes.isOn_of_isOn (ih.1 later member)
    · exact fun found same => passes.isOn_of_isOn (ih.2 found same)

/-- The refusal that ends a reading is that of a lexeme. -/
theorem exists_refused (cursor : Cursor) (text : List Char) {error : LexicalError}
    (ended : (readAll cursor text).2 = some error) :
    ∃ first rest refusal, Lexeme.read first rest = .error refusal ∧
      error.cause = refusal.cause := by
  fun_induction readAll cursor text with
  | case1 cursor text found refused =>
    cases ended
    unfold read at refused
    split at refused
    dsimp only at refused
    split at refused
    · cases refused
    · split at refused
      next lexemeRefused =>
        cases refused
        exact ⟨_, _, _, lexemeRefused, rfl⟩
      · cases refused
  | case2 => cases ended
  | case3 cursor text token after rest success notLast tokens found all ih =>
    rw [all] at ih
    exact ih ended

end Token

end LinearSystem
