import LinearSystem.Proofs.Lexical.Reading
import LinearSystem.Token.Scanner
import Mathlib.Data.String.Basic
/-!
Texts cut out of a source by byte offsets.

An offset is a boundary of a source exactly if it is the length in bytes of what stands before it
(`isBoundary_iff`). So offsets that are counted along the characters always fit, and cut out the
text between them (`slice?_eq`).
-/
namespace LinearSystem.Text

theorem utf8Length_eq_utf8Len (text : List Char) : utf8Length text = String.utf8Len text := by
  induction text with
  | nil => rfl
  | cons c rest ih => rw [utf8Length_cons, String.utf8Len_cons, ih, Nat.add_comm]

/-- An offset is a boundary if it is the length of what stands before it. -/
theorem isBoundary_iff {source : String} {offset : Nat} :
    IsBoundary source offset ↔
      ∃ front back, source.toList = front ++ back ∧ offset = utf8Length front := by
  rw [IsBoundary, String.Pos.Raw.isValid_iff_exists_append]
  constructor
  · rintro ⟨front, back, rfl, length⟩
    refine ⟨front.toList, back.toList, String.toList_append, ?_⟩
    rw [utf8Length_toList]
    exact congrArg String.Pos.Raw.byteIdx length
  · rintro ⟨front, back, whole, rfl⟩
    refine ⟨.ofList front, .ofList back, ?_, ?_⟩
    · rw [← String.ofList_append, ← whole, String.ofList_toList]
    · rw [utf8Length_eq_utf8Len, ← String.utf8ByteSize_ofList]
      rfl

/-- Counted along the characters, offsets bound the text between them. -/
theorem slice?_eq {source : String} {front text back : List Char}
    (whole : source.toList = front ++ text ++ back) :
    slice? source (utf8Length front) (utf8Length front + utf8Length text) =
      some (.ofList text) := by
  have atStart : IsBoundary source (utf8Length front) :=
    isBoundary_iff.mpr ⟨front, text ++ back, by rw [whole, List.append_assoc], rfl⟩
  have atStop : IsBoundary source (utf8Length front + utf8Length text) :=
    isBoundary_iff.mpr ⟨front ++ text, back, whole, (utf8Length_append front text).symm⟩
  have extracted := String.extract_of_valid front text back
  rw [← whole, String.ofList_toList] at extracted
  rw [slice?, if_pos ⟨Nat.le_add_right _ _, atStart, atStop⟩, utf8Length_eq_utf8Len,
    utf8Length_eq_utf8Len, extracted]

theorem eq_nil_of_utf8Length {text : List Char} (empty : utf8Length text = 0) : text = [] := by
  rw [utf8Length_eq_utf8Len] at empty
  exact String.utf8Len_eq_zero.mp empty

/-- Characters are looked for from the front. -/
theorem find?_indexed (accepts : Char → Bool) (offset : Nat) (text : List Char) :
    (indexed offset text).find? (fun place => !accepts place.2) =
      (text.dropWhile accepts).head?.map fun c =>
        (offset + utf8Length (text.takeWhile accepts), c) := by
  induction text generalizing offset with
  | nil => rfl
  | cons c rest ih =>
    cases accepted : accepts c with
    | true => simp [indexed, accepted, ih, utf8Length_cons, Nat.add_assoc]
    | false => simp [indexed, accepted, utf8Length]

end LinearSystem.Text
