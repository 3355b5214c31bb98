import LinearSystem.Proofs.Lexical.Places
import LinearSystem.Proofs.Lexical.Refusal
import LinearSystem.Proofs.Lexical.Scanner
/-!
Locations are counted right.

A reader moves its line and column along with its offset. What it should have come to can also be
counted from the offset alone, over the whole source (`Text.locate?`): the line ends that stop at or
before the offset, and the characters since the last of them. A cursor that is in a text has counted
so far (`Cursor.Cuts`), and passing over layout, lexemes and refused numerals keeps that. So every
token and every refusal has the location of its offset, whatever calls have been made before
(`Scanner.locations_exact`).
-/
namespace LinearSystem

open Text

namespace Text

/-! ### Line ends in a text -/

/-- The offsets at which the line ends of a text start and stop; a carriage return and a line feed
in this order are one. The text itself starts at the offset that is given. -/
def lineEnds (offset : Nat) : List Char → List (Nat × Nat)
  | [] => []
  | '\r' :: '\n' :: rest => (offset, offset + 2) :: lineEnds (offset + 2) rest
  | '\r' :: rest => (offset, offset + 1) :: lineEnds (offset + 1) rest
  | '\n' :: rest => (offset, offset + 1) :: lineEnds (offset + 1) rest
  | c :: rest => lineEnds (offset + c.utf8Size) rest

/-- The line and the column of an offset: one more than the line ends that stop at or before it, and
one more than the characters between the last of these, or the start of the source, and it. -/
def locate? (source : String) (offset : Nat) : Option Location :=
  let ended := (lineEnds 0 source.toList).filter fun place => place.2 ≤ offset
  (slice? source ((ended.getLast?.map Prod.snd).getD 0) offset).map fun text =>
    ⟨1 + ended.length, 1 + text.length⟩

example : locate? "x\r\n ä < 1" 7 = some ⟨2, 4⟩ := by decide +kernel

/-- A text that ends a line in front of another one. -/
inductive EndsLine : List Char → List Char → Prop where
  | both (rest : List Char) : EndsLine ['\r', '\n'] rest
  | single {rest : List Char} (noFeed : ∀ after, rest ≠ '\n' :: after) : EndsLine ['\r'] rest
  | feed (rest : List Char) : EndsLine ['\n'] rest

theorem EndsLine.lineEnds_append {ending rest : List Char} (ends : EndsLine ending rest)
    (offset : Nat) :
    lineEnds offset (ending ++ rest) =
      (offset, offset + utf8Length ending) :: lineEnds (offset + utf8Length ending) rest := by
  cases ends with
  | both => rfl
  | single noFeed =>
    rw [List.singleton_append, lineEnds]
    · rfl
    · exact noFeed
  | feed => rfl

theorem EndsLine.numberedLines_append {ending rest : List Char} (ends : EndsLine ending rest) :
    numberedLines (ending ++ rest) = [] :: numberedLines rest := by
  cases ends with
  | both => rfl
  | single noFeed => exact numberedLines_return noFeed
  | feed => rfl

/-- Text without line ends only moves those of what follows it. -/
theorem lineEnds_append {front : List Char} (plain : ∀ c ∈ front, c ≠ '\r' ∧ c ≠ '\n')
    (offset : Nat) (rest : List Char) :
    lineEnds offset (front ++ rest) = lineEnds (offset + utf8Length front) rest := by
  induction front generalizing offset with
  | nil => rfl
  | cons c front ih =>
    obtain ⟨⟨noReturn, noFeed⟩, others⟩ := List.forall_mem_cons.mp plain
    rw [List.cons_append, lineEnds, ih others, utf8Length_cons, Nat.add_assoc]
    · exact fun after same => absurd same noReturn
    · exact noReturn
    · exact noFeed

/-- Line ends start in the text, and have characters. -/
theorem bounds_of_mem_lineEnds {offset : Nat} {text : List Char} :
    ∀ place ∈ lineEnds offset text, offset ≤ place.1 ∧ place.1 < place.2 := by
  have later {first second : Nat} (further : first ≤ second) {ends : List (Nat × Nat)}
      (bounds : ∀ place ∈ ends, second ≤ place.1 ∧ place.1 < place.2) :
      ∀ place ∈ ends, first ≤ place.1 ∧ place.1 < place.2 :=
    fun place member => ⟨further.trans (bounds place member).1, (bounds place member).2⟩
  fun_induction lineEnds offset text with
  | case1 => exact List.forall_mem_nil _
  | case2 offset rest ih => exact List.forall_mem_cons.mpr ⟨by simp, later (by omega) ih⟩
  | case3 offset rest _ ih => exact List.forall_mem_cons.mpr ⟨by simp, later (by omega) ih⟩
  | case4 offset rest ih => exact List.forall_mem_cons.mpr ⟨by simp, later (by omega) ih⟩
  | case5 offset c rest _ _ _ ih => exact later (Nat.le_add_right _ _) ih

end Text

/-! ### Cursors in a text -/

namespace Cursor

/-- A cursor is in a text, in front of the rest. The line ends before it are counted in its line
and the characters of the line before it in its column. -/
structure Cuts (cursor : Cursor) (text rest : List Char) (ended : List (Nat × Nat))
    (before line : List Char) : Prop where
  whole : text = before ++ line ++ rest
  offset : cursor.offset = utf8Length before + utf8Length line
  location : cursor.location = ⟨1 + ended.length, 1 + line.length⟩
  ends : lineEnds 0 text = ended ++ lineEnds cursor.offset rest
  passed : ∀ place ∈ ended, place.2 ≤ utf8Length before
  last : (ended.getLast?.map Prod.snd).getD 0 = utf8Length before
  lines : ∃ others, others.length = ended.length ∧
    numberedLines text = others ++ (numberedLines rest).modifyHead (line ++ ·)

/-- A cursor has come to be in front of the rest of a text. -/
def IsIn (cursor : Cursor) (text rest : List Char) : Prop :=
  ∃ ended before line, cursor.Cuts text rest ended before line

variable {cursor : Cursor} {text rest front ending before line : List Char}
  {ended : List (Nat × Nat)}

theorem cuts_start (text : List Char) : start.Cuts text text [] [] [] where
  whole := rfl
  offset := rfl
  location := rfl
  ends := rfl
  passed := List.forall_mem_nil _
  last := rfl
  lines := ⟨[], rfl, (modifyHead_nil_append (numberedLines text)).symm⟩

theorem Cuts.nextLine (cuts : cursor.Cuts text (ending ++ rest) ended before line)
    (isEnd : EndsLine ending rest) :
    (cursor.nextLine (utf8Length ending)).Cuts text rest
      (ended ++ [(cursor.offset, cursor.offset + utf8Length ending)]) (before ++ line ++ ending)
      [] := by
  obtain ⟨others, count, numbered⟩ := cuts.lines
  have length : utf8Length (before ++ line ++ ending) = cursor.offset + utf8Length ending := by
    rw [utf8Length_append, utf8Length_append, cuts.offset]
  constructor
  case whole => simp [cuts.whole]
  case offset => rw [length]; rfl
  case location => simp [Cursor.nextLine, cuts.location, Nat.add_assoc]
  case ends =>
    rw [cuts.ends, isEnd.lineEnds_append, List.append_assoc]
    rfl
  case passed =>
    have offset := cuts.offset
    rw [length, List.forall_mem_append]
    refine ⟨fun place member => ?_, by simp⟩
    have := cuts.passed place member
    omega
  case last =>
    rw [List.getLast?_concat]
    exact length.symm
  case lines =>
    refine ⟨others ++ [line], by simp [count], ?_⟩
    rw [numbered, isEnd.numberedLines_append, modifyHead_nil_append]
    simp

theorem Cuts.past (cuts : cursor.Cuts text (front ++ rest) ended before line)
    (plain : ∀ c ∈ front, c ≠ '\r' ∧ c ≠ '\n') :
    (cursor.past front).Cuts text rest ended before (line ++ front) := by
  obtain ⟨others, count, numbered⟩ := cuts.lines
  constructor
  case whole => simp [cuts.whole]
  case offset => simp [Cursor.past, cuts.offset, utf8Length_append, Nat.add_assoc]
  case location => simp [Cursor.past, cuts.location, Nat.add_assoc]
  case ends =>
    rw [cuts.ends, lineEnds_append plain]
    rfl
  case passed => exact cuts.passed
  case last => exact cuts.last
  case lines =>
    refine ⟨others, count, ?_⟩
    rw [numbered, numberedLines_append plain, List.modifyHead_modifyHead]
    simp [Function.comp_def]

theorem IsIn.past (here : cursor.IsIn text (front ++ rest))
    (plain : ∀ c ∈ front, c ≠ '\r' ∧ c ≠ '\n') : (cursor.past front).IsIn text rest := by
  obtain ⟨ended, before, line, cuts⟩ := here
  exact ⟨_, _, _, cuts.past plain⟩

theorem IsIn.nextLine (here : cursor.IsIn text (ending ++ rest)) (isEnd : EndsLine ending rest) :
    (cursor.nextLine (utf8Length ending)).IsIn text rest := by
  obtain ⟨ended, before, line, cuts⟩ := here
  exact ⟨_, _, _, cuts.nextLine isEnd⟩

/-- Layout is counted as it is passed over. -/
theorem IsIn.skipLayout (here : cursor.IsIn text rest) :
    (skipLayout cursor rest).1.IsIn text (LinearSystem.skipLayout cursor rest).2 := by
  fun_induction LinearSystem.skipLayout cursor rest with
  | case1 => exact here
  | case2 cursor rest ih => exact ih (IsIn.nextLine here (.both rest))
  | case3 cursor rest noFeed ih => exact ih (IsIn.nextLine here (.single noFeed))
  | case4 cursor rest ih => exact ih (IsIn.nextLine here (.feed rest))
  | case5 cursor c rest noBoth noReturn noFeed blank ih =>
    exact ih (IsIn.past here (by simpa using ⟨noReturn, noFeed⟩))
  | case6 => exact here

/-- A cursor in a source has the location that is counted for its offset. -/
theorem IsIn.locate? {source : String} (here : cursor.IsIn source.toList rest) :
    locate? source cursor.offset = some cursor.location := by
  obtain ⟨ended, before, line, cuts⟩ := here
  have offset := cuts.offset
  -- Of the line ends in the source, those before the cursor stop at or before it, and no others.
  have upTo : (lineEnds 0 source.toList).filter (fun place => place.2 ≤ cursor.offset) = ended := by
    rw [cuts.ends, List.filter_append, List.filter_eq_self.mpr, List.filter_eq_nil_iff.mpr,
      List.append_nil]
    · intro place member
      have bounds := bounds_of_mem_lineEnds place member
      simpa using by omega
    · intro place member
      have := cuts.passed place member
      simpa using by omega
  rw [Text.locate?, upTo, cuts.last, offset, slice?_eq cuts.whole, cuts.location]
  simp

theorem IsIn.slice? {source : String} (here : cursor.IsIn source.toList (front ++ rest)) :
    slice? source cursor.offset (cursor.past front).offset = some (.ofList front) := by
  obtain ⟨ended, before, line, cuts⟩ := here
  have cut := slice?_eq (cuts.whole.trans (List.append_assoc _ _ _).symm)
  rwa [utf8Length_append, ← cuts.offset] at cut

/-- Where the rest ends, the source ends. -/
theorem IsIn.offset_end {source : String} (here : cursor.IsIn source.toList rest) :
    (cursor.past rest).offset = source.utf8ByteSize := by
  obtain ⟨ended, before, line, cuts⟩ := here
  rw [← utf8Length_toList, cuts.whole, utf8Length_append, utf8Length_append, ← cuts.offset]
  rfl

end Cursor

open Cursor

/-! ### Tokens and refusals -/

/-- A token is where it says: its text is what the source has between its offsets, its location is
that of the first of them, and the end of the source is at the end. -/
structure Token.IsLocated (source : String) (token : Token) : Prop where
  text : slice? source token.start token.stop = some token.value
  location : locate? source token.start = some token.location
  atEnd : token.kind = .endOfInput → token.start = source.utf8ByteSize

/-- A refusal is where it says: its location is that of its offset, and what it says of the text is
so from there on. -/
structure LexicalError.IsLocated (source : String) (error : LexicalError) : Prop where
  location : locate? source error.place.offset = some error.place.location
  about : ∃ rest, slice? source error.place.offset source.utf8ByteSize = some rest ∧
    error.cause.IsAbout rest.toList

/-- A token was read with a cursor in the source in front of its text. -/
def Token.StandsIn (source : String) (token : Token) : Prop :=
  ∃ text rest cursor, cursor.IsIn source.toList (text ++ rest) ∧
    token.content = unlinked token.kind text cursor (cursor.past text) ∧
    (token.kind = .endOfInput → text ++ rest = [])

/-- A refusal was found with a cursor in the source. -/
def LexicalError.StandsIn (source : String) (error : LexicalError) : Prop :=
  ∃ rest, error.place.IsIn source.toList rest ∧ error.cause.IsAbout rest

variable {source : String}

theorem Token.StandsIn.isLocated {token : Token} (stands : token.StandsIn source) :
    token.IsLocated source := by
  obtain ⟨text, rest, cursor, here, same, ends⟩ := stands
  have start : token.start = cursor.offset := congrArg Token.start same
  have stop : token.stop = (cursor.past text).offset := congrArg Token.stop same
  have value : token.value = .ofList text := congrArg Token.value same
  have location : token.location = cursor.location := congrArg Token.location same
  constructor
  case text => rw [start, stop, value, here.slice?]
  case location => rw [start, location, here.locate?]
  case atEnd =>
    intro ended
    rw [start, ← here.offset_end, ends ended, past_nil]

theorem Token.StandsIn.exists_isIn {token : Token} (stands : token.StandsIn source) :
    ∃ (cursor : Cursor) (rest : List Char), cursor.IsIn source.toList rest ∧
      token.start = cursor.offset ∧ token.location = cursor.location := by
  obtain ⟨text, rest, cursor, here, same, -⟩ := stands
  exact ⟨cursor, text ++ rest, here, congrArg Token.start same, congrArg Token.location same⟩

theorem LexicalError.StandsIn.isLocated {error : LexicalError} (stands : error.StandsIn source) :
    error.IsLocated source := by
  obtain ⟨rest, here, about⟩ := stands
  refine ⟨here.locate?, .ofList rest, ?_, by rwa [String.toList_ofList]⟩
  have cut := @IsIn.slice? error.place [] rest source (by rwa [List.append_nil])
  rwa [here.offset_end] at cut

namespace Token

variable {cursor : Cursor} {text : List Char}

theorem standsIn_end (here : cursor.IsIn source.toList []) :
    (unlinked .endOfInput [] cursor cursor).StandsIn source :=
  ⟨[], [], cursor, here, by rw [past_nil]; rfl, fun _ => rfl⟩

/-- Up to the character at fault a numeral has been taken, in which no line ends. -/
theorem standsIn_of_refusal {refusal : Refusal} (here : cursor.IsIn source.toList text)
    (names : refusal.Names 0 text) :
    LexicalError.StandsIn source ⟨cursor.past (text.take refusal.after), refusal.cause⟩ := by
  obtain ⟨front, back, rfl, after, numeral, about⟩ := names
  have plain : ∀ c ∈ front, c ≠ '\r' ∧ c ≠ '\n' := by
    intro c member
    have inNumeral := numeral c member
    constructor
    · rintro rfl
      cases inNumeral
    · rintro rfl
      cases inNumeral
  rw [after, Nat.zero_add, List.take_left]
  exact ⟨back, here.past plain, about⟩

/-- What is read is a token at its place or a refusal at its place, and after a token the cursor is
in the source again. -/
theorem standsIn_of_read (here : cursor.IsIn source.toList text) :
    match read cursor text with
    | .ok (token, after, rest) => token.StandsIn source ∧ after.IsIn source.toList rest
    | .error error => error.StandsIn source := by
  have skipped := here.skipLayout
  unfold read
  generalize skipLayout cursor text = layout at skipped ⊢
  obtain ⟨place, left⟩ := layout
  cases left with
  | nil => exact ⟨standsIn_end skipped, skipped⟩
  | cons first others =>
    dsimp only at skipped ⊢
    cases lexed : Lexeme.read first others with
    | error refusal => exact standsIn_of_refusal skipped (Lexeme.names_of_read lexed)
    | ok part =>
      obtain ⟨lexeme, rest⟩ := part
      obtain ⟨whole, spelled, -⟩ := Lexeme.read_eq_ok.mp lexed
      rw [whole] at skipped
      -- No line ends within a lexeme, so the column has only to go on by its length.
      refine ⟨⟨lexeme.text, rest, place, skipped, rfl, fun ended => ?_⟩,
        skipped.past spelled.ne_lineEnd⟩
      exact absurd ended spelled.kind_ne_end

end Token

/-- Linking a token leaves the places of all tokens as they are. -/
theorem Chain.standsIn_append {chain : Chain} {token : Token}
    (stand : ∀ other ∈ chain.toList, other.StandsIn source) (next : token.StandsIn source) :
    ∀ other ∈ (chain.append token).toList, other.StandsIn source := by
  have contents (tokens : List Token) : (∀ other ∈ tokens, other.StandsIn source) ↔
      ∀ content ∈ tokens.map Token.content, content.StandsIn source := by
    rw [List.forall_mem_map]
    exact Iff.rfl
  rw [contents, map_content_append, List.forall_mem_append]
  exact ⟨(contents chain.toList).mp stand, List.forall_mem_singleton.mpr next⟩

/-! ### Calls -/

/-- What is returned is where it says. -/
def Answer.IsLocated (source : String) : Answer → Prop
  | some (.ok token) => token.IsLocated source
  | some (.error error) => error.IsLocated source
  | none => True

namespace TokenStream

/-- A stream that is in a source, and so is everything that has been read. -/
structure StandsIn (source : String) (stream : TokenStream) : Prop where
  current : stream.current.StandsIn source
  chain : ∀ token ∈ stream.chain.toList, token.StandsIn source
  here : stream.cursor.IsIn source.toList stream.rest

variable {stream : TokenStream}

theorem standsIn_ofSource (source : String) : (ofSource source).StandsIn source := by
  have here : Cursor.start.IsIn source.toList source.toList :=
    ⟨[], [], [], cuts_start source.toList⟩
  have first : (Token.unlinked .startOfInput [] .start .start).StandsIn source :=
    ⟨[], source.toList, .start, here, by rw [past_nil]; rfl, by simp [Token.unlinked]⟩
  exact ⟨first, Chain.standsIn_append (List.forall_mem_nil _) first, here⟩

/-- What one call of `advance` does. -/
theorem StandsIn.advance (stands : stream.StandsIn source) :
    (match stream.advance.1 with
      | .ok token => token.StandsIn source
      | .error error => error.StandsIn source) ∧ stream.advance.2.StandsIn source := by
  by_cases ended : stream.current.kind = .endOfInput
  · rw [TokenStream.advance, if_pos ended]
    exact ⟨stands.current, stands⟩
  · have read := Token.standsIn_of_read stands.here
    rw [stream.advance_eq ended]
    cases tokenRead : Token.read stream.cursor stream.rest with
    | error error =>
      rw [tokenRead] at read
      exact ⟨read, stands⟩
    | ok part =>
      rw [tokenRead] at read
      exact ⟨read.1, read.1, Chain.standsIn_append stands.chain read.1, read.2⟩

theorem StandsIn.call (stands : stream.StandsIn source) (call : Call) :
    (stream.call call).1.IsLocated source ∧ (stream.call call).2.StandsIn source := by
  by_cases ended : call = .next ∧ stream.exhausted = true
  · obtain ⟨rfl, exhausted⟩ := ended
    rw [call_next_of_exhausted exhausted]
    exact ⟨trivial, stands⟩
  · obtain ⟨answer, current, chain, here⟩ := stands.advance
    rw [call_eq ended]
    refine ⟨?_, current, chain, here⟩
    cases advanced : stream.advance.1 with
    | error error =>
      rw [advanced] at answer
      exact answer.isLocated
    | ok token =>
      rw [advanced] at answer
      exact answer.isLocated

/-- Each call starts where the one before it has left the stream, in the source. -/
theorem StandsIn.history (stands : stream.StandsIn source) (calls : List Call) :
    (∀ answered ∈ stream.history calls, answered.2.IsLocated source) ∧
      (stream.afterCalls calls).StandsIn source := by
  induction calls generalizing stream with
  | nil => exact ⟨List.forall_mem_nil _, stands⟩
  | cons call rest ih =>
    obtain ⟨answer, after⟩ := stands.call call
    obtain ⟨answers, final⟩ := ih after
    exact ⟨List.forall_mem_cons.mpr ⟨answer, answers⟩, final⟩

theorem StandsIn.finish (stands : stream.StandsIn source)
    (more : stream.current.kind ≠ .endOfInput) :
    match stream.finish with
    | .ok chain => ∀ token ∈ chain.toList, token.StandsIn source
    | .error error => error.StandsIn source := by
  -- By induction on what is still to be read: a refusal ends it, and a token leaves less of it.
  induction stream using ahead_induction with
  | ended stream ended => exact absurd ended more
  | refused stream error _ _ advance =>
    have answer := stands.advance.1
    rw [advance] at answer
    rw [stream.finish_refused advance]
    exact answer
  | read stream after token _ _ advance current _ _ ih =>
    have there := stands.advance.2
    rw [advance] at there
    rw [stream.finish_read advance]
    by_cases last : token.kind = .endOfInput
    · rw [if_pos last]
      exact there.chain
    · rw [if_neg last]
      exact ih there (by rwa [current])

end TokenStream

theorem Chain.standsIn_ofSource (source : String) :
    match ofSource source with
    | .ok chain => ∀ token ∈ chain.toList, token.StandsIn source
    | .error error => error.StandsIn source :=
  (TokenStream.standsIn_ofSource source).finish (TokenStream.more_ofSource source)

/-- A scanner that is read by any calls, and one that is read to its end, never fails, and all that
it returns and all tokens of its chain are where they say. -/
theorem Scanner.locations_exact (source : String) :
    (∀ calls, ∃ answers after, (ofSource source).run? calls = some (answers, after) ∧
      (∀ answered ∈ answers, answered.2.IsLocated source) ∧
      ∀ token ∈ after.chain.toList, token.IsLocated source) ∧
    (ofSource source).finish? = some (Chain.ofSource source) ∧
      match Chain.ofSource source with
      | .ok chain => ∀ token ∈ chain.toList, token.IsLocated source
      | .error error => error.IsLocated source := by
  have reads := reads_ofSource source
  have more : (TokenStream.ofSource source).current.kind ≠ .endOfInput := by
    simp [TokenStream.ofSource, Token.unlinked]
  refine ⟨fun calls => ?_, reads.finish? more, ?_⟩
  · obtain ⟨after, ran, there⟩ := reads.run? calls
    obtain ⟨answers, final⟩ := (TokenStream.standsIn_ofSource source).history calls
    refine ⟨_, after, ran, answers, ?_⟩
    rw [there.chain]
    exact fun token member => (final.chain token member).isLocated
  · have stands := Chain.standsIn_ofSource source
    split at stands
    next chain read =>
      exact fun token member => (stands token member).isLocated
    next error unread => exact stands.isLocated

end LinearSystem
