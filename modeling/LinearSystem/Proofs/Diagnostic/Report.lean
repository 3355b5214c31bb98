import LinearSystem.Proofs.Command.Status
import LinearSystem.Proofs.Decimal.Positional
import LinearSystem.Proofs.Diagnostic.Message
import LinearSystem.Proofs.Lexical.Places
/-!
The line that a report quotes.

The place of a diagnostic is on a line that the source has, and no part of a report but the quoted
line holds text of the source with line ends in it, so a report has four lines
(`Diagnostic.splitOn_report`) and its third is the line of the diagnostic, as far as quoting and
numbering agree on lines (`Source.third_line_of_report`). They do not agree where a carriage return
stands by itself (`Source.return_hides_line`).
-/
namespace LinearSystem

open Text

/-! ### Reports -/

namespace Diagnostic

theorem feed_notMem_toDigits (n : Nat) : '\n' ∉ Nat.toDigits 10 n := by
  intro feed
  cases (Decimal.isDigits_toDigits n).2 '\n' feed

/-- A report has four lines, if neither the message nor what is quoted has more than one. -/
theorem splitOn_report {diagnostic : Diagnostic} (message : '\n' ∉ diagnostic.message.toList)
    (quoted : '\n' ∉ diagnostic.quotedLine.toList) :
    diagnostic.report.toList.splitOn '\n' =
      ["error: ".toList ++ diagnostic.message.toList,
        "at line ".toList ++ (toString diagnostic.location.line).toList ++ ", column ".toList ++
          (toString diagnostic.location.column).toList,
        ' ' :: diagnostic.quotedLine.toList,
        diagnostic.indent.toList ++ ['^'], []] := by
  have column : '\n' ∉ ("at line ".toList ++ (toString diagnostic.location.line).toList ++
      ", column ".toList ++ (toString diagnostic.location.column).toList) := by
    simp [feed_notMem_toDigits]
  have first : '\n' ∉ "error: ".toList ++ diagnostic.message.toList := by
    simpa using message
  have third : '\n' ∉ ' ' :: diagnostic.quotedLine.toList := by simpa using quoted
  have caret : '\n' ∉ diagnostic.indent.toList ++ ['^'] := by
    simp [indent]
  -- The report is its lines, each with a line feed behind it.
  have whole : diagnostic.report.toList =
      ("error: ".toList ++ diagnostic.message.toList) ++ '\n' ::
        (("at line ".toList ++ (toString diagnostic.location.line).toList ++ ", column ".toList ++
          (toString diagnostic.location.column).toList) ++ '\n' ::
            ((' ' :: diagnostic.quotedLine.toList) ++ '\n' ::
              ((diagnostic.indent.toList ++ ['^']) ++ ['\n']))) := by
    have feed : "\n".toList = ['\n'] := rfl
    have caret : "^\n".toList = ['^', '\n'] := rfl
    have margin : " ".toList = [' '] := rfl
    unfold report
    simp only [String.toList_append, feed, caret, margin, List.append_assoc,
      List.cons_append, List.nil_append]
  rw [whole, List.splitOn_append_cons_self_of_not_mem first,
    List.splitOn_append_cons_self_of_not_mem column,
    List.splitOn_append_cons_self_of_not_mem third,
    List.splitOn_append_cons_self_of_not_mem caret, List.splitOn_nil]

end Diagnostic

theorem Text.feed_notMem_lineNumbered (text : String) (number : Nat) :
    '\n' ∉ (lineNumbered text number).toList := by
  rw [lineNumbered, String.toList_ofList]
  cases found : (lines text.toList)[number - 1]? with
  | none => simp
  | some line => exact feed_notMem_lines text.toList line (List.mem_of_getElem? found)

/-! ### Sources -/

theorem Chain.isOn_of_ofSource {source : String} {chain : Chain}
    (read : ofSource source = .ok chain) :
    ∀ token ∈ chain.toList, token.location.IsOn .start source.toList := by
  intro token member
  have places := (Token.readAll_isOn .start source.toList).1
  rw [ofSource_eq] at read
  split at read
  next tokens all =>
    cases read
    rw [all] at places
    have located := List.mem_map_of_mem (f := Token.location) member
    -- Linking moves no token, so its place is that of a token that was read, or the start.
    rw [map_link (fun _ => rfl), List.map_cons] at located
    rcases List.mem_cons.mp located with start | later
    · rw [start]
      exact (Cursor.Passes.refl .start source.toList).isOn
    · obtain ⟨other, among, same⟩ := List.mem_map.mp later
      rw [← same]
      exact places other among
  · cases read

namespace Source

/-- What a source is refused with is about that source: the place is on one of its lines, and the
message takes one line. -/
theorem isOn_of_chain {source : String} {diagnostic : Diagnostic}
    (refused : chain source = .error diagnostic) :
    diagnostic.source = source ∧ diagnostic.location.IsOn .start source.toList ∧
      '\n' ∉ diagnostic.message.toList := by
  unfold chain at refused
  split at refused
  next error unread =>
    cases refused
    rw [Chain.ofSource_eq] at unread
    split at unread
    · cases unread
    next ended =>
      cases unread
      have ended := congrArg Prod.snd ended
      obtain ⟨first, rest, refusal, lexeme, same⟩ := Token.exists_refused .start source.toList ended
      refine ⟨rfl, (Token.readAll_isOn .start source.toList).2 error ended, ?_⟩
      simpa only [LexicalError.diagnostic, same] using Lexeme.feed_notMem_message lexeme
  next read =>
    split at refused
    next error broken =>
      obtain ⟨violation, blamed, among, rfl⟩ :=
        (Chain.integral_of_ofSource read).blamed_of_check broken
      cases refused
      exact ⟨rfl, Chain.isOn_of_ofSource read blamed among, violation.feed_notMem_message⟩
    · cases refused

/-- The third line of a report on a source is a blank and the line that the place is on, provided
that the lines that are quoted, up to that one, have no carriage return left in them. -/
theorem third_line_of_report {table : SymbolTable} {source : String} {diagnostic : Diagnostic}
    (refused : (parse table source).1 = .error diagnostic)
    (plain : ∀ line ∈ (lines source.toList).take diagnostic.location.line, '\r' ∉ line) :
    1 ≤ diagnostic.location.line ∧
      ∃ line, (numberedLines source.toList)[diagnostic.location.line - 1]? = some line ∧
        (diagnostic.report.toList.splitOn '\n')[2]? = some (' ' :: line) := by
  obtain ⟨same, ⟨first, last⟩, message⟩ := isOn_of_chain (parse_eq_error refused)
  change 1 ≤ diagnostic.location.line at first
  change diagnostic.location.line < 1 + (numberedLines source.toList).length at last
  obtain ⟨line, numbered⟩ : ∃ line,
      (numberedLines source.toList)[diagnostic.location.line - 1]? = some line :=
    ⟨_, List.getElem?_eq_getElem (by omega)⟩
  refine ⟨first, line, numbered, ?_⟩
  -- The line that is quoted is the line that is numbered.
  have agree : (lines source.toList)[diagnostic.location.line - 1]?.getD [] = line := by
    rw [getD_lines_eq (by rwa [Nat.sub_add_cancel first]), numbered, Option.getD_some]
  have quoted : diagnostic.quotedLine.toList = line := by
    rw [Diagnostic.quotedLine, lineNumbered, String.toList_ofList, same, agree]
  have quotedLine := feed_notMem_lineNumbered diagnostic.source diagnostic.location.line
  rw [Diagnostic.splitOn_report message quotedLine, quoted]
  rfl

theorem parse_eq_error_of_readAll {source : String} {error : LexicalError}
    (ended : (Token.readAll .start source.toList).2 = some error) (table : SymbolTable) :
    (parse table source).1 = .error (error.diagnostic source) := by
  have unread : Chain.ofSource source = .error error := by
    rw [Chain.ofSource_eq]
    split
    next all => rw [all] at ended; cases ended
    next all => rw [all] at ended; cases ended; rfl
  rw [parse, parseWith, chain, unread]

/-- A line end of two characters does not count twice and is not quoted. -/
theorem third_line_of_twoLines :
    let source := "x <= 1,\r\ny < 2"
    let diagnostic := (LexicalError.mk ⟨11, ⟨2, 3⟩⟩ .lessThan).diagnostic source
    (parse .empty source).1 = .error diagnostic ∧
      (∀ line ∈ (lines source.toList).take diagnostic.location.line, '\r' ∉ line) ∧
      1 ≤ diagnostic.location.line ∧
      ∃ line, (numberedLines source.toList)[diagnostic.location.line - 1]? = some line ∧
        (diagnostic.report.toList.splitOn '\n')[2]? = some (' ' :: line) := by
  intro source diagnostic
  have refused : (parse .empty source).1 = .error diagnostic :=
    parse_eq_error_of_readAll (by decide +kernel) .empty
  have plain : ∀ line ∈ (lines source.toList).take diagnostic.location.line, '\r' ∉ line := by
    decide +kernel
  exact ⟨refused, plain, third_line_of_report refused plain⟩

/-- In `x\ry < 1` a carriage return by itself starts a second line, and nothing is quoted of it. -/
theorem return_hides_line :
    let source := "x\ry < 1"
    let diagnostic := (LexicalError.mk ⟨4, ⟨2, 3⟩⟩ .lessThan).diagnostic source
    (parse .empty source).1 = .error diagnostic ∧
      (numberedLines source.toList)[diagnostic.location.line - 1]? = some "y < 1".toList ∧
      (diagnostic.report.toList.splitOn '\n')[2]? = some [' '] := by
  intro source diagnostic
  refine ⟨parse_eq_error_of_readAll (by decide +kernel) .empty, by decide +kernel, ?_⟩
  -- The text has one line for quoting, so the second is empty.
  have message : '\n' ∉ diagnostic.message.toList := by decide +kernel
  have quoted := feed_notMem_lineNumbered source 2
  rw [Diagnostic.splitOn_report message quoted]
  decide +kernel

end Source

end LinearSystem
