import LinearSystem.Proofs.Diagnostic.Report
import LinearSystem.Proofs.Lexical.Locations
/-!
The caret under the fault.

A diagnostic is located by a cursor in the source, and the line that a report quotes is what the
cursor has counted of its line with what follows up to the line end (`Cursor.Cuts.getElem?_lines`).
So the caret has the character at fault above it, or nothing where the fault is at a line end or at
the end of the source (`Source.caret_under_fault`), as long as the lines that are quoted are those
that are counted, which they are where no carriage return stands by itself.
-/
namespace LinearSystem

open Text

namespace Text

/-- Every carriage return has a line feed directly behind it. -/
def PairsReturns (text : List Char) : Prop :=
  ∀ place < text.length, text[place]? = some '\r' → text[place + 1]? = some '\n'

/-- Where a line goes on. -/
def isInLine (c : Char) : Bool := c != '\r' && c != '\n'

theorem PairsReturns.tail {c : Char} {rest : List Char} (paired : PairsReturns (c :: rest)) :
    PairsReturns rest :=
  fun place inside => paired (place + 1) (Nat.succ_lt_succ inside)

theorem PairsReturns.ne_return {c : Char} {rest : List Char} (paired : PairsReturns (c :: rest))
    (noBoth : ∀ after, c = '\r' → rest ≠ '\n' :: after) : c ≠ '\r' := by
  rintro rfl
  have feed := paired 0 (Nat.zero_lt_succ _) rfl
  rw [List.getElem?_cons_succ, ← List.head?_eq_getElem?] at feed
  obtain ⟨after, same⟩ := List.head?_eq_some_iff.mp feed
  exact noBoth after rfl same

theorem PairsReturns.return_notMem_lines {text : List Char} (paired : PairsReturns text) :
    ∀ line ∈ lines text, '\r' ∉ line := by
  fun_induction lines text with
  | case1 => exact List.forall_mem_nil _
  | case2 rest ih => exact List.forall_mem_cons.mpr ⟨by simp, ih paired.tail.tail⟩
  | case3 rest ih => exact List.forall_mem_cons.mpr ⟨by simp, ih paired.tail⟩
  | case4 c rest noBoth noFeed none ih =>
    have noReturn := paired.ne_return noBoth
    simpa using Ne.symm noReturn
  | case5 c rest noBoth noFeed line others cut ih =>
    have noReturn := paired.ne_return noBoth
    have plain := ih paired.tail
    rw [cut] at plain
    obtain ⟨first, further⟩ := List.forall_mem_cons.mp plain
    refine List.forall_mem_cons.mpr ⟨?_, further⟩
    simpa [first] using Ne.symm noReturn

/-- The first line goes on up to the first line end. -/
theorem head?_numberedLines (text : List Char) :
    (numberedLines text).head? = some (text.takeWhile isInLine) := by
  fun_induction numberedLines text with
  | case1 => rfl
  | case2 => rfl
  | case3 => rfl
  | case4 => rfl
  | case5 c rest _ noReturn noFeed ih =>
    have inLine : isInLine c = true := by simpa [isInLine] using ⟨noReturn, noFeed⟩
    rw [List.head?_modifyHead, ih, List.takeWhile_cons_of_pos inLine]
    rfl

theorem head?_takeWhile_of_ne_nil {accepts : Char → Bool} {text : List Char}
    (nonempty : text.takeWhile accepts ≠ []) :
    (text.takeWhile accepts).head? = text.head? := by
  obtain ⟨c, found⟩ := Option.ne_none_iff_exists'.mp (mt List.head?_eq_none_iff.mp nonempty)
  rw [found]
  rw [List.head?_takeWhile, Option.filter_eq_some_iff] at found
  exact found.1.symm

/-- A line end starts where a text starts if the line does not go on there. -/
theorem mem_starts_lineEnds {offset : Nat} {text : List Char} :
    offset ∈ (lineEnds offset text).map Prod.fst ↔ text ≠ [] ∧ text.takeWhile isInLine = [] := by
  fun_cases lineEnds offset text with
  | case1 => simp
  | case2 rest => simp [isInLine]
  | case3 rest => simp [isInLine]
  | case4 rest => simp [isInLine]
  | case5 c rest noBoth noReturn noFeed =>
    have inLine : isInLine c = true := by simpa [isInLine] using ⟨noReturn, noFeed⟩
    have size := c.utf8Size_pos
    rw [List.takeWhile_cons_of_pos inLine]
    refine iff_of_false ?_ (by simp)
    intro member
    obtain ⟨place, among, same⟩ := List.mem_map.mp member
    have bounds := bounds_of_mem_lineEnds place among
    omega

end Text

/-- The line of a cursor has what has been counted of it and what follows up to the line end. -/
theorem Cursor.Cuts.getElem?_lines {cursor : Cursor} {text rest before line : List Char}
    {ended : List (Nat × Nat)} (cuts : cursor.Cuts text rest ended before line) :
    (numberedLines text)[ended.length]? = some (line ++ rest.takeWhile isInLine) := by
  obtain ⟨others, count, numbered⟩ := cuts.lines
  rw [numbered, ← count, List.getElem?_append_right (Nat.le_refl _), Nat.sub_self,
    ← List.head?_eq_getElem?, List.head?_modifyHead, head?_numberedLines]
  rfl

/-- A line end starts at a cursor if there is more text and the line does not go on. -/
theorem Cursor.Cuts.mem_starts {cursor : Cursor} {text rest before line : List Char}
    {ended : List (Nat × Nat)} (cuts : cursor.Cuts text rest ended before line) :
    cursor.offset ∈ (lineEnds 0 text).map Prod.fst ↔
      rest ≠ [] ∧ rest.takeWhile isInLine = [] := by
  have offset := cuts.offset
  rw [cuts.ends, List.map_append, List.mem_append, mem_starts_lineEnds]
  refine or_iff_right ?_
  -- The line ends before the cursor start before it too.
  intro member
  obtain ⟨place, among, same⟩ := List.mem_map.mp member
  have bounds := bounds_of_mem_lineEnds place (cuts.ends ▸ List.mem_append_left _ among)
  have passed := cuts.passed place among
  omega

theorem Cursor.Cuts.offset_eq_end_iff {cursor : Cursor} {source : String}
    {rest before line : List Char} {ended : List (Nat × Nat)}
    (cuts : cursor.Cuts source.toList rest ended before line) :
    cursor.offset = source.utf8ByteSize ↔ rest = [] := by
  rw [← utf8Length_toList, cuts.whole, utf8Length_append, utf8Length_append, cuts.offset,
    Nat.left_eq_add]
  exact ⟨eq_nil_of_utf8Length, fun none => none ▸ rfl⟩

theorem Cursor.Cuts.get?_eq {cursor : Cursor} {source : String} {rest before line : List Char}
    {ended : List (Nat × Nat)} (cuts : cursor.Cuts source.toList rest ended before line) :
    String.Pos.Raw.get? source ⟨cursor.offset⟩ = rest.head? := by
  have found := String.get?_of_valid (before ++ line) rest
  rwa [← cuts.whole, String.ofList_toList, ← utf8Length_eq_utf8Len, utf8Length_append,
    ← cuts.offset] at found

namespace Source

/-- The offset that a refusal of a source is about: where its text is refused, or where the token
starts that is blamed. -/
def fault? (source : String) : Option Nat :=
  match Chain.ofSource source with
  | .error error => some error.place.offset
  | .ok chain =>
    match chain.check with
    | .error (.grammar _ blamed) => some blamed.start
    | .error (.integrity _) | .ok () => none

/-- The offset that a refusal is about and the location that is told are those of one cursor. -/
theorem exists_cursor {source : String} {diagnostic : Diagnostic}
    (refused : chain source = .error diagnostic) :
    ∃ (cursor : Cursor) (rest : List Char), cursor.IsIn source.toList rest ∧
      fault? source = some cursor.offset ∧ diagnostic.location = cursor.location := by
  have stands := Chain.standsIn_ofSource source
  unfold chain at refused
  unfold fault?
  cases read : Chain.ofSource source with
  | error error =>
    simp only [read] at refused stands ⊢
    obtain ⟨rest, here, -⟩ := stands
    cases refused
    exact ⟨error.place, rest, here, rfl, rfl⟩
  | ok tokens =>
    cases broken : tokens.check with
    | ok => simp only [read, broken, reduceCtorEq] at refused
    | error error =>
      simp only [read, broken, Except.error.injEq] at refused stands ⊢
      obtain ⟨violation, blamed, among, rfl⟩ :=
        (Chain.integral_of_ofSource read).blamed_of_check broken
      obtain ⟨cursor, rest, here, start, location⟩ := (stands blamed among).exists_isIn
      exact ⟨cursor, rest, here, congrArg some start, refused ▸ location⟩

/-- The caret of a report stands under the character at fault, and exactly where there is none on
the line it stands one past the end of the line. -/
theorem caret_under_fault {table : SymbolTable} {source : String} {diagnostic : Diagnostic}
    (refused : (parse table source).1 = .error diagnostic)
    (paired : PairsReturns source.toList) :
    ∃ offset quoted caret, fault? source = some offset ∧
      (diagnostic.report.toList.splitOn '\n')[2]? = some quoted ∧
      (diagnostic.report.toList.splitOn '\n')[3]? = some (List.replicate caret ' ' ++ ['^']) ∧
      caret ≤ quoted.length ∧
      (caret < quoted.length → quoted[caret]? = String.Pos.Raw.get? source ⟨offset⟩) ∧
      (caret = quoted.length ↔
        offset = source.utf8ByteSize ∨ offset ∈ (lineEnds 0 source.toList).map Prod.fst) := by
  obtain ⟨same, -, message⟩ := isOn_of_chain (parse_eq_error refused)
  obtain ⟨cursor, rest, ⟨ended, before, line, cuts⟩, fault, location⟩ :=
    exists_cursor (parse_eq_error refused)
  -- The line that is quoted is the line of the cursor.
  have quoted : diagnostic.quotedLine.toList = line ++ rest.takeWhile isInLine := by
    have number : diagnostic.location.line - 1 = ended.length := by
      rw [location, cuts.location, Nat.add_sub_cancel_left]
    have plain : ∀ other ∈ (lines source.toList).take (ended.length + 1), '\r' ∉ other :=
      fun other member => paired.return_notMem_lines other (List.mem_of_mem_take member)
    rw [Diagnostic.quotedLine, lineNumbered, String.toList_ofList, same, number,
      getD_lines_eq plain, cuts.getElem?_lines, Option.getD_some]
  have indent : diagnostic.indent.toList = List.replicate (1 + line.length) ' ' := by
    rw [Diagnostic.indent, String.toList_ofList, location, cuts.location,
      Nat.max_eq_left (Nat.le_add_right _ _)]
  have noFeed := feed_notMem_lineNumbered diagnostic.source diagnostic.location.line
  rw [Diagnostic.splitOn_report message noFeed, quoted, indent]
  set shown := rest.takeWhile isInLine
  have length : (' ' :: (line ++ shown)).length = 1 + line.length + shown.length := by
    rw [List.length_cons, List.length_append]
    omega
  refine ⟨cursor.offset, ' ' :: (line ++ shown), 1 + line.length, fault, rfl, rfl, ?_, ?_, ?_⟩
  · rw [length]
    exact Nat.le_add_right _ _
  · intro inside
    rw [length] at inside
    have above : (' ' :: (line ++ shown))[1 + line.length]? = shown.head? := by
      rw [Nat.add_comm, List.getElem?_cons_succ, List.getElem?_append_right (Nat.le_refl _),
        Nat.sub_self, List.head?_eq_getElem?]
    have nonempty : shown ≠ [] := List.length_pos_iff.mp (by omega)
    rw [above, cuts.get?_eq, head?_takeWhile_of_ne_nil nonempty]
  · rw [cuts.mem_starts, cuts.offset_eq_end_iff, length, Nat.left_eq_add, List.length_eq_zero_iff]
    -- Nothing follows on the line at its end, and at the end of the source nothing at all.
    constructor
    · exact fun none => or_iff_not_imp_left.mpr fun more => ⟨more, none⟩
    · rintro (rfl | ⟨-, none⟩)
      · rfl
      · exact none

/-- The second line of the source is quoted, and the caret is under the character that no digit
follows, which takes two bytes. -/
theorem caret_under_letter :
    let source := "x <= 1,\r\n2.é"
    let diagnostic := (LexicalError.mk ⟨11, ⟨2, 3⟩⟩ (.expectedDigit (some 'é'))).diagnostic source
    (parse .empty source).1 = .error diagnostic ∧ PairsReturns source.toList ∧
    ∃ offset quoted caret, fault? source = some offset ∧
      (diagnostic.report.toList.splitOn '\n')[2]? = some quoted ∧
      (diagnostic.report.toList.splitOn '\n')[3]? = some (List.replicate caret ' ' ++ ['^']) ∧
      caret ≤ quoted.length ∧
      (caret < quoted.length → quoted[caret]? = String.Pos.Raw.get? source ⟨offset⟩) ∧
      (caret = quoted.length ↔
        offset = source.utf8ByteSize ∨ offset ∈ (lineEnds 0 source.toList).map Prod.fst) := by
  intro source diagnostic
  have refused : (parse .empty source).1 = .error diagnostic :=
    parse_eq_error_of_readAll (by decide +kernel) .empty
  have paired : PairsReturns source.toList := by
    unfold PairsReturns
    decide +kernel
  exact ⟨refused, paired, caret_under_fault refused paired⟩

end Source

end LinearSystem
