import LinearSystem.Proofs.Lexical.LineEnds
import LinearSystem.Proofs.Text.Slice
/-!
Byte offsets that never miss.

A scanner counts bytes where a stream keeps the text that is left. Its offsets are lengths of what
stands in front of a text (`Scanner.At`), and every reader goes on from such an offset to another,
also where it counts a character as one byte without looking: it has seen a digit, a letter or an
operator there. So a scanner takes what is taken off the front of the text, nothing that it cuts out
of the source is missing, and its refusals are those of the text at their places
(`Scanner.At.readToken`).
-/
namespace LinearSystem

/-! ### One byte -/

theorem utf8Size_of_isDigit {c : Char} (digit : c.isDigit = true) : c.utf8Size = 1 := by
  have bound := (Lexeme.val_of_isDigit digit).2
  rw [Char.utf8Size_eq_one_iff, UInt32.le_iff_toNat_le]
  exact bound.trans (by decide)

theorem utf8Size_of_startsName {c : Char} (name : Text.startsName c = true) : c.utf8Size = 1 := by
  rw [Char.utf8Size_eq_one_iff, UInt32.le_iff_toNat_le]
  simp only [Text.startsName, Bool.or_eq_true, beq_iff_eq] at name
  rcases name with letter | rfl
  · exact (Lexeme.val_of_isAlpha letter).2.trans (by decide)
  · decide

theorem Cursor.offset_past_cons (cursor : Cursor) {c : Char} (byte : c.utf8Size = 1) :
    (cursor.past [c]).offset = cursor.offset + 1 := by
  simp [past, utf8Length, byte]

namespace Scanner

/-! ### Offsets that fit -/

/-- The cursor is on the current line of the scanner, and the rest is what the source has from there
on. -/
def At (scanner : Scanner) (cursor : Cursor) (rest : List Char) : Prop :=
  ∃ lines line, scanner.source.toList = lines ++ line ++ rest ∧
    scanner.lineStart = utf8Length lines ∧
    cursor = ⟨utf8Length lines + utf8Length line, ⟨scanner.line, 1 + line.length⟩⟩

variable {scanner : Scanner} {cursor : Cursor} {text rest : List Char}

namespace At

theorem past (here : scanner.At cursor (text ++ rest)) : scanner.At (cursor.past text) rest := by
  obtain ⟨lines, line, whole, starts, rfl⟩ := here
  refine ⟨lines, line ++ text, by simp [whole], starts, ?_⟩
  simp [Cursor.past, utf8Length_append, Nat.add_assoc]

theorem pass {c : Char} (here : scanner.At cursor (c :: rest)) :
    scanner.At (cursor.past [c]) rest :=
  @past scanner cursor [c] rest here

theorem location? (here : scanner.At cursor rest) :
    scanner.location? cursor.offset = some cursor.location := by
  obtain ⟨lines, line, whole, starts, rfl⟩ := here
  rw [Scanner.location?, starts, Text.slice?_eq whole]
  simp

theorem slice? (here : scanner.At cursor (text ++ rest)) :
    Text.slice? scanner.source cursor.offset (cursor.past text).offset = some (.ofList text) := by
  obtain ⟨lines, line, whole, -, rfl⟩ := here
  rw [← List.append_assoc] at whole
  have cut := Text.slice?_eq whole
  rwa [utf8Length_append] at cut

/-- Where the rest ends, the source ends. -/
theorem offset_end (here : scanner.At cursor rest) :
    scanner.source.utf8ByteSize = (cursor.past rest).offset := by
  obtain ⟨lines, line, whole, -, rfl⟩ := here
  rw [← utf8Length_toList, whole, utf8Length_append, utf8Length_append]
  rfl

theorem suffix? (here : scanner.At cursor rest) :
    Text.slice? scanner.source cursor.offset scanner.source.utf8ByteSize = some (.ofList rest) := by
  rw [here.offset_end]
  exact @At.slice? scanner cursor rest [] (by rwa [List.append_nil])

theorem peek? (here : scanner.At cursor rest) : scanner.peek? cursor.offset = rest.head? := by
  rw [Scanner.peek?, here.suffix?]
  simp

theorem refuse {α : Type} (here : scanner.At cursor rest) (cause : LexicalCause) :
    (scanner.refuse cursor.offset cause : Except Failure α) =
      .error (.refused ⟨cursor, cause⟩) := by
  rw [Scanner.refuse, here.location?]
  rfl

theorem createToken (here : scanner.At cursor (text ++ rest)) (kind : Kind) :
    scanner.createToken kind cursor.offset (cursor.past text).offset =
      .ok (Token.unlinked kind text cursor (cursor.past text)) := by
  rw [Scanner.createToken, here.location?, here.slice?]
  rfl

theorem readWhile (here : scanner.At cursor rest) (accepts : Char → Bool) :
    scanner.readWhile accepts cursor.offset =
      .ok (cursor.past (rest.takeWhile accepts)).offset := by
  have found := Text.find?_indexed accepts 0 rest
  rw [Scanner.readWhile, here.suffix?]
  simp only [orFault, bind, Except.bind, String.toList_ofList, found]
  cases left : rest.dropWhile accepts with
  | nil =>
    -- Where nothing is left, everything has been accepted.
    have all : rest.takeWhile accepts = rest := by
      rw [← List.append_nil (rest.takeWhile accepts), ← left, List.takeWhile_append_dropWhile]
    rw [all, ← here.offset_end]
    rfl
  | cons c others => simp [pure, Except.pure, Cursor.past]

end At

/-! ### Parts of a numeral -/

/-- A refusal of a text that starts at a cursor, at its place in the source. -/
def refusedAt (start : Cursor) (text : List Char) (refusal : Refusal) : Failure :=
  .refused ⟨start.past (text.take refusal.after), refusal.cause⟩

/-- What a scanner gives for a part that is taken off the rest of a text, of which some has been
seen: the offset after the part, or the refusal. -/
def stopOf (start : Cursor) (seen rest : List Char) : Taken → Except Failure Nat
  | .ok (taken, _) => .ok (start.past (seen ++ taken)).offset
  | .error refusal => .error (refusedAt start (seen ++ rest) refusal)

namespace At

variable {start : Cursor} {seen : List Char}

theorem readDigits (here : scanner.At start (seen ++ rest)) :
    scanner.readDigits (start.past seen).offset rest.head? =
      stopOf start seen rest (Literal.takeDigits seen.length rest) := by
  have there := here.past
  cases rest with
  | nil =>
    rw [Scanner.readDigits, if_neg (by simp), there.refuse]
    simp [Literal.takeDigits, stopOf, refusedAt]
  | cons c rest =>
    by_cases digit : c.isDigit = true
    · -- The first digit is passed over as one byte, without a look at its size.
      have next := there.pass
      have size := (start.past seen).offset_past_cons (utf8Size_of_isDigit digit)
      rw [Scanner.readDigits, List.head?_cons, if_pos (by simpa using digit), ← size,
        next.readWhile]
      simp [Literal.takeDigits, stopOf, digit, ← Cursor.past_append]
    · rw [Scanner.readDigits, if_neg (by simpa using digit), there.refuse]
      simp [Literal.takeDigits, stopOf, digit, refusedAt]

theorem readWhole {first : Char} (here : scanner.At start (first :: rest)) :
    scanner.readWhole start.offset first =
      stopOf start [] (first :: rest) (Literal.takeWhole (first :: rest)) := by
  by_cases zero : first = '0'
  · subst zero
    have next := here.pass
    have size : (start.past ['0']).offset = start.offset + 1 := rfl
    rw [Scanner.readWhole, if_pos rfl, Literal.takeWhole_zero, ← size, next.peek?]
    cases found : rest.head?.filter Char.isDigit with
    | none => rfl
    | some digit =>
      simp only [next.refuse]
      rfl
  · by_cases point : first = '.'
    · subst point
      rw [Scanner.readWhole, if_neg zero, if_pos rfl]
      simp [Literal.takeWhole, stopOf]
    · rw [Scanner.readWhole, if_neg zero, if_neg point,
        Literal.takeWhole_other (by simpa using point) (by simpa using zero)]
      have digits := @readDigits scanner _ start [] here
      rwa [Cursor.past_nil] at digits

theorem readFraction (here : scanner.At start (seen ++ rest)) :
    scanner.readFraction (start.past seen).offset =
      stopOf start seen rest (Literal.takeFraction seen.length rest) := by
  have there := here.past
  rw [Scanner.readFraction, there.peek?]
  by_cases point : rest.head? = some '.'
  · obtain ⟨rest, rfl⟩ := List.head?_eq_some_iff.mp point
    have next := there.pass
    have size : ((start.past seen).past ['.']).offset = (start.past seen).offset + 1 := rfl
    rw [if_pos point, ← size, next.peek?, ← Cursor.past_append, readDigits (by simpa using here)]
    simp only [Literal.takeFraction, List.length_append, List.length_singleton]
    cases Literal.takeDigits (seen.length + 1) rest with
    | error refusal => simp [stopOf, refusedAt, Except.map]
    | ok part => simp [stopOf, Except.map]
  · rw [if_neg point, Literal.takeFraction_other _ point]
    simp [stopOf]

theorem passSign (here : scanner.At start (seen ++ rest)) :
    scanner.passSign (start.past seen).offset =
      (start.past (seen ++ (Literal.takeSign rest).1)).offset := by
  have there := here.past
  rw [Scanner.passSign, there.peek?]
  by_cases plus : rest.head? = some '+'
  · obtain ⟨rest, rfl⟩ := List.head?_eq_some_iff.mp plus
    rw [if_pos (.inl plus), Cursor.past_append]
    exact ((start.past seen).offset_past_cons rfl).symm
  · by_cases minus : rest.head? = some '-'
    · obtain ⟨rest, rfl⟩ := List.head?_eq_some_iff.mp minus
      rw [if_pos (.inr minus), Cursor.past_append]
      exact ((start.past seen).offset_past_cons rfl).symm
    · rw [if_neg (by simp [plus, minus]), Literal.takeSign_other plus minus, List.append_nil]

/-- Whether there is an exponent shows in what is taken. -/
theorem readExponent (here : scanner.At start (seen ++ rest)) :
    scanner.readExponent (start.past seen).offset =
      match Literal.takeExponent seen.length rest with
      | .ok (exponent, _) => .ok (!exponent.isEmpty, (start.past (seen ++ exponent)).offset)
      | .error refusal => .error (refusedAt start (seen ++ rest) refusal) := by
  have there := here.past
  rw [Scanner.readExponent, there.peek?]
  cases rest with
  | nil => simp [Literal.takeExponent]
  | cons mark rest =>
    by_cases marks : Literal.marksExponent mark = true
    · have byte := utf8Size_of_startsName (Literal.startsName_of_marksExponent marks)
      have size := (start.past seen).offset_past_cons byte
      have signed : scanner.At start (seen ++ [mark] ++ rest) := by simpa using here
      have unsigned : scanner.At start
          (seen ++ [mark] ++ (Literal.takeSign rest).1 ++ (Literal.takeSign rest).2) := by
        simpa [Literal.takeSign_append] using here
      rw [if_pos (by simpa using marks), ← size, ← Cursor.past_append, signed.passSign]
      simp only [unsigned.past.peek?, unsigned.readDigits, Literal.takeExponent, marks, if_true,
        List.length_append, List.length_singleton]
      cases Literal.takeDigits (seen.length + 1 + (Literal.takeSign rest).1.length)
          (Literal.takeSign rest).2 with
      | error refusal =>
        simp [stopOf, refusedAt, Except.map, bind, Except.bind, Literal.takeSign_append]
      | ok part => simp [stopOf, Except.map, bind, Except.bind, pure, Except.pure]
    · rw [if_neg (by simpa using marks)]
      simp [Literal.takeExponent, marks]

theorem readParts {first : Char} (here : scanner.At start (first :: rest)) :
    scanner.readParts start.offset first =
      match Literal.takeParts (first :: rest) with
      | .ok (whole, fraction, exponent, _) =>
        .ok (!exponent.isEmpty, (start.past (whole ++ fraction ++ exponent)).offset)
      | .error refusal => .error (refusedAt start (first :: rest) refusal) := by
  rw [Scanner.readParts, Literal.takeParts, here.readWhole]
  cases wholeTaken : Literal.takeWhole (first :: rest) with
  | error refusal => rfl
  | ok part =>
    obtain ⟨whole, afterWhole⟩ := part
    -- What one part has taken has been seen by the next one.
    have text := Literal.takeWhole_append wholeTaken
    rw [← text] at here ⊢
    simp only [stopOf, bind, Except.bind, List.nil_append, here.readFraction]
    cases fractionTaken : Literal.takeFraction whole.length afterWhole with
    | error refusal => rfl
    | ok part =>
      obtain ⟨fraction, afterFraction⟩ := part
      rw [← Literal.takeFraction_append fractionTaken, ← List.append_assoc] at here ⊢
      simp only [here.readExponent, List.length_append]
      cases Literal.takeExponent (whole.length + fraction.length) afterFraction with
      | error refusal => rfl
      | ok part => rfl

end At

/-! ### Lexemes -/

/-- What a scanner gives for a lexeme that is read off a text: its token, or the refusal. -/
def tokenOf (start : Cursor) (text : List Char) :
    Except Refusal (Lexeme × List Char) → Except Failure Token
  | .ok (lexeme, _) =>
    .ok (Token.unlinked lexeme.kind lexeme.text start (start.past lexeme.text))
  | .error refusal => .error (refusedAt start text refusal)

namespace At

variable {start : Cursor} {first : Char}

theorem readCoefficient (here : scanner.At start (first :: rest)) :
    scanner.readCoefficient start.offset first =
      tokenOf start (first :: rest)
        ((Literal.take (first :: rest)).map fun (text, rest) => (⟨.coefficient, text⟩, rest)) := by
  rw [Scanner.readCoefficient, Literal.take, here.readParts]
  cases partsTaken : Literal.takeParts (first :: rest) with
  | error refusal => rfl
  | ok parts =>
    obtain ⟨whole, fraction, exponent, left⟩ := parts
    have text := Literal.takeParts_append partsTaken
    simp only [bind, Except.bind]
    generalize whole ++ fraction ++ exponent = literal at text ⊢
    rw [← text] at here ⊢
    rw [here.past.peek?, ← Literal.dangling?_eq_filter]
    cases Literal.dangling? (!exponent.isEmpty) left with
    | some found =>
      simp only [here.past.refuse]
      simp [tokenOf, refusedAt, Except.map]
    | none =>
      simp only [here.createToken, here.refuse]
      by_cases finite : Literal.isFinite literal = true
      · simp [Token.unlinked, tokenOf, Except.map, finite, pure, Except.pure]
      · simp [Token.unlinked, tokenOf, refusedAt, Except.map, finite]

theorem readName (here : scanner.At start (first :: rest)) (byte : first.utf8Size = 1) :
    scanner.readName start.offset =
      .ok (Token.unlinked .name (first :: rest.takeWhile Text.continuesName) start
        (start.past (first :: rest.takeWhile Text.continuesName))) := by
  have next := here.pass
  have named : scanner.At start
      (first :: rest.takeWhile Text.continuesName ++ rest.dropWhile Text.continuesName) := by
    simpa using here
  rw [Scanner.readName, ← start.offset_past_cons byte, next.readWhile, ← Cursor.past_append]
  exact named.createToken .name

/-- The operators of one and of two characters. -/
theorem createToken_one (here : scanner.At start (first :: rest)) (kind : Kind) :
    scanner.createToken kind start.offset (start.offset + first.utf8Size) =
      .ok (Token.unlinked kind [first] start (start.past [first])) :=
  @createToken scanner start [first] rest here kind

theorem createToken_two {second : Char} (here : scanner.At start (first :: second :: rest))
    (byte : first.utf8Size = 1) (byte' : second.utf8Size = 1) (kind : Kind) :
    scanner.createToken kind start.offset (start.offset + 2) =
      .ok (Token.unlinked kind [first, second] start (start.past [first, second])) := by
  have two : (start.past [first, second]).offset = start.offset + 2 := by
    simp [Cursor.past, utf8Length, byte, byte']
  rw [← two]
  exact @createToken scanner start [first, second] rest here kind

theorem refuse_first (here : scanner.At start rest) (cause : LexicalCause) :
    scanner.refuse start.offset cause = tokenOf start rest (.error ⟨0, cause⟩) := by
  rw [here.refuse]
  simp [tokenOf, refusedAt]

theorem readLexeme (here : scanner.At start (first :: rest)) :
    scanner.readLexeme start.offset first =
      tokenOf start (first :: rest) (Lexeme.read first rest) := by
  have next : scanner.peek? (start.offset + first.utf8Size) = rest.head? :=
    here.pass.peek?
  by_cases plain : Lexeme.IsPlain first
  · have reads := plain
    obtain ⟨noEqual, noLess, noGreater⟩ := plain
    rw [Lexeme.read_of_plain reads]
    unfold Scanner.readLexeme
    split
    · contradiction
    · contradiction
    · contradiction
    · cases Lexeme.symbol? first with
      | some kind => exact here.createToken_one kind
      | none =>
        dsimp only
        split
        · exact here.readCoefficient
        · split
          next name => exact here.readName (utf8Size_of_startsName name)
          · exact here.refuse_first _
  · -- The second character is passed over as one byte only after it has been found to be `=`.
    have operator : first = '=' ∨ first = '<' ∨ first = '>' := by
      simpa only [Lexeme.IsPlain, not_and_or, not_not] using plain
    by_cases double : rest.head? = some '='
    · obtain ⟨others, rfl⟩ := List.head?_eq_some_iff.mp double
      rcases operator with rfl | rfl | rfl <;> rw [Scanner.readLexeme, next] <;>
        exact here.createToken_two rfl rfl _
    · obtain ⟨equal, less, greater⟩ := Lexeme.read_single double
      rcases operator with rfl | rfl | rfl
      · rw [Scanner.readLexeme, next, equal]
        simp only [double, if_false]
        exact here.createToken_one _
      · rw [Scanner.readLexeme, next, less]
        simp only [double, if_false]
        exact here.refuse_first _
      · rw [Scanner.readLexeme, next, greater]
        simp only [double, if_false]
        exact here.refuse_first _

end At

/-! ### Layout -/

section

variable {position : Nat}

theorem skip_feed (found : scanner.peek? position = some '\n') :
    scanner.skip position = (scanner.newLine (position + 1)).skip (position + 1) := by
  rw [Scanner.skip]
  split <;> simp_all

theorem skip_return (found : scanner.peek? position = some '\r') :
    scanner.skip position =
      let stop := position + if scanner.peek? (position + 1) = some '\n' then 2 else 1
      (scanner.newLine stop).skip stop := by
  have byte : '\r'.utf8Size = 1 := rfl
  rw [Scanner.skip]
  split <;> simp_all

theorem skip_blank {c : Char} (found : scanner.peek? position = some c)
    (blank : Text.isBlank c = true) :
    scanner.skip position = scanner.skip (position + c.utf8Size) := by
  rw [Scanner.skip]
  split
  next absent => cases found.symm.trans absent
  next feed =>
    cases found.symm.trans feed
    cases blank
  next return' =>
    cases found.symm.trans return'
    cases blank
  next other noFeed noReturn same =>
    cases found.symm.trans same
    rw [if_pos blank]

theorem skip_stop (stops : ∀ c, scanner.peek? position = some c → Text.isLayout c = false) :
    scanner.skip position = (scanner, position) := by
  rw [Scanner.skip]
  split <;> simp_all [Text.isLayout]

end

/-- A line starts where the one before it has ended. -/
theorem At.newLine (here : scanner.At cursor (text ++ rest)) :
    (scanner.newLine (cursor.offset + utf8Length text)).At (cursor.nextLine (utf8Length text))
      rest := by
  obtain ⟨lines, line, whole, -, rfl⟩ := here
  refine ⟨lines ++ line ++ text, [], by simp [Scanner.newLine, whole], ?_, ?_⟩
  · simp [Scanner.newLine, utf8Length_append, Nat.add_assoc]
  · simp only [Scanner.newLine, Cursor.nextLine, utf8Length_append]
    rfl

/-- A scanner passes over layout up to a place with a rest, and stays on the line of that place. -/
def SkipsTo (scanner : Scanner) (position : Nat) (left : Cursor × List Char) : Prop :=
  ∃ line lineStart, let after := { scanner with line, lineStart }
    scanner.skip position = (after, left.1.offset) ∧ after.At left.1 left.2

theorem SkipsTo.step {line lineStart position later : Nat} {left : Cursor × List Char}
    (skips : { scanner with line, lineStart }.SkipsTo later left)
    (same : scanner.skip position = { scanner with line, lineStart }.skip later) :
    scanner.SkipsTo position left := by
  obtain ⟨line, lineStart, skipped, there⟩ := skips
  exact ⟨line, lineStart, same.trans skipped, there⟩

/-- Nothing is passed over where no layout stands. -/
theorem At.skipsTo_here (here : scanner.At cursor rest)
    (stops : ∀ c, rest.head? = some c → Text.isLayout c = false) :
    scanner.SkipsTo cursor.offset (cursor, rest) := by
  rw [← here.peek?] at stops
  exact ⟨scanner.line, scanner.lineStart, skip_stop stops, here⟩

/-- A scanner passes over what a stream passes over. -/
theorem At.skip (here : scanner.At cursor rest) :
    scanner.SkipsTo cursor.offset (skipLayout cursor rest) := by
  -- One case for each kind of line end, one for a blank, and two for a place without layout.
  fun_induction skipLayout cursor rest generalizing scanner with
  | case1 cursor => exact here.skipsTo_here (by simp)
  | case2 cursor rest ih =>
    have feed : scanner.peek? (cursor.offset + 1) = some '\n' := here.pass.peek?
    refine (ih (@newLine scanner cursor ['\r', '\n'] rest here)).step ?_
    rw [skip_return here.peek?, if_pos feed]
    rfl
  | case3 cursor rest noFeed ih =>
    have following : scanner.peek? (cursor.offset + 1) = rest.head? := here.pass.peek?
    have single : scanner.peek? (cursor.offset + 1) ≠ some '\n' := by
      rw [following]
      intro feed
      obtain ⟨after, rfl⟩ := List.head?_eq_some_iff.mp feed
      exact noFeed after rfl
    refine (ih (@newLine scanner cursor ['\r'] rest here)).step ?_
    rw [skip_return here.peek?, if_neg single]
    rfl
  | case4 cursor rest ih =>
    exact (ih (@newLine scanner cursor ['\n'] rest here)).step (skip_feed here.peek?)
  | case5 cursor c rest noBoth noReturn noFeed blank ih =>
    exact (ih here.pass).step (skip_blank here.peek? blank)
  | case6 cursor c rest noBoth noReturn noFeed noBlank =>
    exact here.skipsTo_here (by simp_all [Text.isLayout])

/-! ### Tokens -/

/-- A scanner reads the token that comes next, or gives the refusal of it. -/
theorem At.readToken {current : Token} (here : scanner.At cursor rest)
    (last : scanner.token? = some current) (place : current.stop = cursor.offset) :
    match Token.read cursor rest with
    | .error error => scanner.readToken = .error (.refused error)
    | .ok (token, cursor, rest) => ∃ line lineStart, let after := { scanner with line, lineStart }
      scanner.readToken = .ok (token, after) ∧ after.At cursor rest ∧
        token.stop = cursor.offset := by
  obtain ⟨line, lineStart, skipped, there⟩ := here.skip
  rw [Scanner.readToken, last]
  simp only [orFault, bind, Except.bind, place, skipped, there.peek?]
  unfold Token.read
  generalize skipLayout cursor rest = left at there ⊢
  obtain ⟨start, text⟩ := left
  cases text with
  | nil =>
    have ended := @createToken _ start [] [] there .endOfInput
    rw [Cursor.past_nil] at ended
    simp only [List.head?_nil, ended]
    exact ⟨line, lineStart, rfl, there, rfl⟩
  | cons first text =>
    simp only [List.head?_cons, there.readLexeme]
    cases lexed : Lexeme.read first text with
    | error refusal => rfl
    | ok part =>
      obtain ⟨lexeme, left⟩ := part
      rw [← Lexeme.read_append lexed] at there
      exact ⟨line, lineStart, rfl, there.past, rfl⟩

end Scanner

end LinearSystem
