import LinearSystem.Token.Stream
/-!
Reading tokens by byte offsets.

A `Scanner` reads what a `TokenStream` reads, but it keeps no text that is left and no cursor, only
numbers: the offset at which the current line starts, and the place of the last token in the chain.
Texts are cut out of the source between two offsets, and tokens are looked up in the chain by their
places. Either fails where the numbers do not fit the source or the chain, and a failed reading is a
fault and not a refusal of the source. Also where the numbers are not known to fit, every token that
is read takes at least one byte (`Scanner.left_lt_of_advance?`), so reading to the end terminates.
-/
namespace LinearSystem

namespace Text

/-- A byte offset is at an end of a source or between two of its characters. -/
abbrev IsBoundary (source : String) (offset : Nat) : Prop :=
  String.Pos.Raw.IsValid source ⟨offset⟩

/-- The text between two byte offsets. There is none unless both are boundaries and the first is not
behind the second. -/
def slice? (source : String) (start stop : Nat) : Option String :=
  if start ≤ stop ∧ IsBoundary source start ∧ IsBoundary source stop then
    some (String.Pos.Raw.extract source ⟨start⟩ ⟨stop⟩)
  else none

/-- Characters with their byte offsets, of which the first is given. -/
def indexed (offset : Nat) : List Char → List (Nat × Char)
  | [] => []
  | c :: rest => (offset, c) :: indexed (offset + c.utf8Size) rest

theorem start_le_of_slice? {source text : String} {start stop : Nat}
    (cut : slice? source start stop = some text) : start ≤ stop := by
  unfold slice? at cut
  split at cut
  next fits => exact fits.1
  · cases cut

theorem start_lt_of_slice? {source text : String} {start stop : Nat}
    (cut : slice? source start stop = some text) (nonempty : text ≠ "") : start < stop := by
  unfold slice? at cut
  split at cut
  · cases cut
    exact Nat.lt_of_not_le fun behind => nonempty (if_pos behind)
  · cases cut

end Text

/-- A source that is being read by byte offsets: the chain of the tokens so far and the place of the
last of them, the current line and the offset of its first character, and whether `next?` has come
to its end. -/
structure Scanner where
  source : String
  chain : Chain
  current : Nat
  line : Nat
  lineStart : Nat
  exhausted : Bool

namespace Scanner

/-- Why there is no result: numbers that do not fit the source or the chain, or a text that is
refused. -/
inductive Failure where
  | fault
  | refused (error : LexicalError)

variable {α : Type}

/-- What should be there is a fault where it is missing. -/
def orFault : Option α → Except Failure α
  | some result => .ok result
  | none => .error .fault

/-- A source before its first token. -/
def ofSource (source : String) : Scanner where
  source := source
  chain := Chain.empty.append (Token.unlinked .startOfInput [] Cursor.start Cursor.start)
  current := Chain.empty.size
  line := 1
  lineStart := 0
  exhausted := false

variable (scanner : Scanner)

/-- The last token that was read. -/
def token? : Option Token := scanner.chain.get? scanner.current

/-! ### Characters -/

/-- The line and the column of a byte offset on the current line. -/
def location? (position : Nat) : Option Location :=
  (Text.slice? scanner.source scanner.lineStart position).map fun text =>
    ⟨scanner.line, 1 + text.length⟩

/-- Refuses the source at a byte offset. -/
def refuse (position : Nat) (cause : LexicalCause) : Except Failure α := do
  let location ← orFault (scanner.location? position)
  throw (.refused ⟨⟨position, location⟩, cause⟩)

/-- The token between two byte offsets, in no chain yet. -/
def createToken (kind : Kind) (start stop : Nat) : Except Failure Token := do
  let location ← orFault (scanner.location? start)
  let value ← orFault (Text.slice? scanner.source start stop)
  return { kind, value, start, stop, location, index := 0, prev := none, next := none }

/-- The character at a byte offset. There is none at the end of the source, and none at an offset
that does not fit, which is no fault. -/
def peek? (position : Nat) : Option Char :=
  (Text.slice? scanner.source position scanner.source.utf8ByteSize).bind fun rest =>
    rest.toList.head?

/-- The byte offset of the first character from an offset on that is not accepted, or of the end. -/
def readWhile (accepts : Char → Bool) (start : Nat) : Except Failure Nat := do
  let rest ← orFault (Text.slice? scanner.source start scanner.source.utf8ByteSize)
  match (Text.indexed 0 rest.toList).find? fun place => !accepts place.2 with
  | some (offset, _) => return start + offset
  | none => return scanner.source.utf8ByteSize

theorem lt_of_peek? {scanner : Scanner} {position : Nat} {c : Char}
    (found : scanner.peek? position = some c) : position < scanner.source.utf8ByteSize := by
  obtain ⟨rest, cut, first⟩ := Option.bind_eq_some_iff.mp found
  refine Text.start_lt_of_slice? cut ?_
  rintro rfl
  cases first

/-! ### Numerals and names -/

/-- The end of the digits that start at a byte offset, of which there must be one. -/
def readDigits (start : Nat) (first : Option Char) : Except Failure Nat :=
  if first.any Char.isDigit then scanner.readWhile Char.isDigit (start + 1)
  else scanner.refuse start (.expectedDigit first)

/-- The end of the digits before the point, which may be left out; after a zero comes no digit. -/
def readWhole (start : Nat) (first : Char) : Except Failure Nat :=
  if first = '0' then
    match (scanner.peek? (start + 1)).filter Char.isDigit with
    | some next => scanner.refuse (start + 1) (.digitAfterZero next)
    | none => .ok (start + 1)
  else if first = '.' then .ok start
  else scanner.readDigits start (some first)

/-- The end of the point and the digits after it, if a point comes next. -/
def readFraction (position : Nat) : Except Failure Nat :=
  if scanner.peek? position = some '.' then
    scanner.readDigits (position + 1) (scanner.peek? (position + 1))
  else .ok position

/-- The end of an optional sign. -/
def passSign (position : Nat) : Nat :=
  if scanner.peek? position = some '+' ∨ scanner.peek? position = some '-' then position + 1
  else position

/-- Whether there is an exponent, and its end. -/
def readExponent (position : Nat) : Except Failure (Bool × Nat) :=
  if (scanner.peek? position).any Literal.marksExponent then do
    let position := scanner.passSign (position + 1)
    return (true, ← scanner.readDigits position (scanner.peek? position))
  else .ok (false, position)

/-- Whether the numeral that starts at a byte offset has an exponent, and the end of its parts. -/
def readParts (start : Nat) (first : Char) : Except Failure (Bool × Nat) := do
  let position ← scanner.readWhole start first
  let position ← scanner.readFraction position
  scanner.readExponent position

/-- The numeral that starts at a byte offset. -/
def readCoefficient (start : Nat) (first : Char) : Except Failure Token := do
  let (hasExponent, position) ← scanner.readParts start first
  match (scanner.peek? position).filter fun next =>
      next == '.' || hasExponent && Text.startsName next with
  | some found => scanner.refuse position (.danglingCharacter found)
  | none =>
    let token ← scanner.createToken .coefficient start position
    if Literal.isFinite token.value.toList then return token
    else scanner.refuse start (.outOfRange token.value)

/-- The name that starts at a byte offset. -/
def readName (start : Nat) : Except Failure Token := do
  let stop ← scanner.readWhile Text.continuesName (start + 1)
  scanner.createToken .name start stop

/-! ### Tokens -/

/-- A new line that starts at a byte offset. -/
def newLine (start : Nat) : Scanner :=
  { scanner with line := scanner.line + 1, lineStart := start }

/-- Passes over blanks and line ends from a byte offset on. -/
def skip (scanner : Scanner) (position : Nat) : Scanner × Nat :=
  match _found : scanner.peek? position with
  | none => (scanner, position)
  | some '\n' => (scanner.newLine (position + 1)).skip (position + 1)
  | some '\r' =>
    let stop :=
      position + if scanner.peek? (position + '\r'.utf8Size) = some '\n' then 2 else 1
    (scanner.newLine stop).skip stop
  | some c =>
    if Text.isBlank c then scanner.skip (position + c.utf8Size) else (scanner, position)
termination_by scanner.source.utf8ByteSize - position
decreasing_by
  all_goals
    have bound := lt_of_peek? _found
  · simp only [newLine]
    omega
  · simp only [newLine]
    split <;> omega
  · have size := c.utf8Size_pos
    omega

/-- The token that starts with a character at a byte offset. -/
def readLexeme (position : Nat) (first : Char) : Except Failure Token :=
  let next := scanner.peek? (position + first.utf8Size)
  match first with
  | '=' =>
    let stop := if next = some '=' then position + 2 else position + 1
    scanner.createToken (.relation .equal) position stop
  | '<' =>
    if next = some '=' then scanner.createToken (.relation .atMost) position (position + 2)
    else scanner.refuse position .lessThan
  | '>' =>
    if next = some '=' then scanner.createToken (.relation .atLeast) position (position + 2)
    else scanner.refuse position .greaterThan
  | first =>
    match Lexeme.symbol? first with
    | some kind => scanner.createToken kind position (position + first.utf8Size)
    | none =>
      if Text.startsNumeral first then scanner.readCoefficient position first
      else if Text.startsName first then scanner.readName position
      else scanner.refuse position (.invalidCharacter first)

/-- The token after the current one, and the scanner with the line that it is on. -/
def readToken : Except Failure (Token × Scanner) := do
  let current ← orFault scanner.token?
  let (scanner, position) := scanner.skip current.stop
  match scanner.peek? position with
  | none => return (← scanner.createToken .endOfInput position position, scanner)
  | some first => return (← scanner.readLexeme position first, scanner)

/-! ### Calls -/

/-- Reads one more token and links it to the chain. There is no answer in the case of a fault. -/
def advance? : Option (Except LexicalError Token × Scanner) := do
  let current ← scanner.token?
  if current.kind = .endOfInput then return (.ok current, scanner)
  match scanner.readToken with
  | .error .fault => none
  -- The lines that were passed over are passed over again next time.
  | .error (.refused error) => return (.error error, scanner)
  | .ok (token, scanner) =>
    let scanner :=
      { scanner with chain := scanner.chain.append token, current := scanner.chain.size }
    return (.ok (← scanner.token?), scanner)

/-- Reads one more token, or nothing after the last token or a refusal has been returned. -/
def next? : Option (Option (Except LexicalError Token) × Scanner) := do
  if scanner.exhausted then return (none, scanner)
  match ← scanner.advance? with
  | (.ok token, scanner) =>
    return (some (.ok token), { scanner with exhausted := token.kind = .endOfInput })
  | (.error error, scanner) => return (some (.error error), { scanner with exhausted := true })

/-! ### Progress -/

section Progress

variable {scanner after : Scanner} {β : Type} {start stop position : Nat} {first : Char}
  {kind : Kind} {last token : Token}

theorem ok_of_bind {reading : Except Failure α} {next : α → Except Failure β} {result : β}
    (done : (reading >>= next) = .ok result) :
    ∃ found, reading = .ok found ∧ next found = .ok result := by
  cases reading with
  | error failure => cases done
  | ok found => exact ⟨found, rfl, done⟩

theorem some_of_orFault {found : Option α} {result : α} (present : orFault found = .ok result) :
    found = some result := by
  cases found with
  | none => cases present
  | some other =>
    cases present
    rfl

theorem refuse_ne_ok {cause : LexicalCause} {result : α} :
    scanner.refuse position cause ≠ .ok result := by
  intro refused
  obtain ⟨location, -, refused⟩ := ok_of_bind refused
  cases refused

theorem createToken_eq (created : scanner.createToken kind start stop = .ok token) :
    token.kind = kind ∧ token.stop = stop := by
  obtain ⟨location, -, created⟩ := ok_of_bind created
  obtain ⟨value, -, created⟩ := ok_of_bind created
  cases created
  exact ⟨rfl, rfl⟩

theorem le_of_readWhile {accepts : Char → Bool}
    (read : scanner.readWhile accepts start = .ok stop) : start ≤ stop := by
  obtain ⟨rest, cut, read⟩ := ok_of_bind read
  split at read
  · cases read
    exact Nat.le_add_right ..
  · cases read
    exact Text.start_le_of_slice? (some_of_orFault cut)

theorem lt_of_readDigits {first : Option Char} (read : scanner.readDigits start first = .ok stop) :
    start < stop := by
  unfold readDigits at read
  split at read
  · exact le_of_readWhile read
  · exact absurd read refuse_ne_ok

/-- The digits before the point are left out only where the point comes first. -/
theorem lt_or_point_of_readWhole (read : scanner.readWhole start first = .ok stop) :
    start < stop ∨ first = '.' ∧ start = stop := by
  unfold readWhole at read
  split at read
  · split at read
    · exact absurd read refuse_ne_ok
    · cases read
      exact .inl (Nat.lt_succ_self start)
  · split at read
    next point =>
      cases read
      exact .inr ⟨point, rfl⟩
    · exact .inl (lt_of_readDigits read)

theorem le_of_readFraction (read : scanner.readFraction position = .ok stop) :
    position ≤ stop ∧ (scanner.peek? position = some '.' → position < stop) := by
  unfold readFraction at read
  split at read
  · have further := lt_of_readDigits read
    exact ⟨by omega, fun _ => by omega⟩
  next noPoint =>
    cases read
    exact ⟨Nat.le_refl _, fun point => absurd point noPoint⟩

theorem le_passSign : position ≤ scanner.passSign position := by
  unfold passSign
  split <;> omega

theorem le_of_readExponent {hasExponent : Bool}
    (read : scanner.readExponent position = .ok (hasExponent, stop)) : position ≤ stop := by
  unfold readExponent at read
  split at read
  · obtain ⟨digits, read, done⟩ := ok_of_bind read
    cases done
    have signed := @le_passSign scanner (position + 1)
    have further := lt_of_readDigits read
    omega
  · cases read
    exact Nat.le_refl _

theorem lt_of_readParts {hasExponent : Bool} (found : scanner.peek? start = some first)
    (read : scanner.readParts start first = .ok (hasExponent, stop)) : start < stop := by
  obtain ⟨whole, wholeRead, read⟩ := ok_of_bind read
  obtain ⟨fraction, fractionRead, read⟩ := ok_of_bind read
  have afterFraction := le_of_readExponent read
  obtain ⟨afterWhole, afterPoint⟩ := le_of_readFraction fractionRead
  rcases lt_or_point_of_readWhole wholeRead with digits | ⟨rfl, rfl⟩
  · omega
  · have := afterPoint found
    omega

theorem lt_of_readCoefficient (found : scanner.peek? start = some first)
    (read : scanner.readCoefficient start first = .ok token) : start < token.stop := by
  obtain ⟨⟨hasExponent, stop⟩, partsRead, read⟩ := ok_of_bind read
  have further := lt_of_readParts found partsRead
  simp only at read
  split at read
  · exact absurd read refuse_ne_ok
  · obtain ⟨numeral, created, read⟩ := ok_of_bind read
    split at read
    · cases read
      rwa [(createToken_eq created).2]
    · exact absurd read refuse_ne_ok

theorem lt_of_readName (read : scanner.readName start = .ok token) : start < token.stop := by
  obtain ⟨stop, nameRead, created⟩ := ok_of_bind read
  rw [(createToken_eq created).2]
  exact le_of_readWhile nameRead

theorem lt_of_readLexeme (found : scanner.peek? position = some first)
    (read : scanner.readLexeme position first = .ok token) : position < token.stop := by
  have size := first.utf8Size_pos
  unfold readLexeme at read
  simp only at read
  split at read
  · rw [(createToken_eq read).2]
    split <;> omega
  · split at read
    · rw [(createToken_eq read).2]
      omega
    · exact absurd read refuse_ne_ok
  · split at read
    · rw [(createToken_eq read).2]
      omega
    · exact absurd read refuse_ne_ok
  · split at read
    · rw [(createToken_eq read).2]
      omega
    · split at read
      · exact lt_of_readCoefficient found read
      · split at read
        · exact lt_of_readName read
        · exact absurd read refuse_ne_ok

theorem le_skip (scanner : Scanner) (position : Nat) :
    position ≤ (scanner.skip position).2 ∧
      (scanner.skip position).1.source = scanner.source := by
  fun_induction skip scanner position <;> simp_all [newLine] <;> omega

/-- The number of bytes after the last token. -/
def left (scanner : Scanner) : Nat :=
  match scanner.token? with
  | some token => scanner.source.utf8ByteSize - token.stop
  | none => 0

theorem readToken_stop (current : scanner.token? = some last)
    (read : scanner.readToken = .ok (token, after)) (more : token.kind ≠ .endOfInput) :
    last.stop < token.stop ∧ last.stop < scanner.source.utf8ByteSize ∧
      after.source = scanner.source := by
  obtain ⟨current', here, read⟩ := ok_of_bind read
  cases current.symm.trans (some_of_orFault here)
  obtain ⟨further, sameSource⟩ := scanner.le_skip last.stop
  generalize scanner.skip last.stop = skipped at further sameSource read
  obtain ⟨later, position⟩ := skipped
  simp only at further sameSource read
  split at read
  · obtain ⟨final, created, read⟩ := ok_of_bind read
    cases read
    exact absurd (createToken_eq created).1 more
  next first found =>
    obtain ⟨lexeme, lexemeRead, read⟩ := ok_of_bind read
    cases read
    have inside := lt_of_peek? found
    have beyond := lt_of_readLexeme found lexemeRead
    rw [sameSource] at inside
    exact ⟨by omega, by omega, sameSource⟩

theorem left_of_token? (current : scanner.token? = some last) :
    scanner.left = scanner.source.utf8ByteSize - last.stop := by
  rw [left, current]

/-- Reading a token other than the last takes bytes away. -/
theorem left_lt_of_advance? (success : scanner.advance? = some (.ok token, after))
    (more : token.kind ≠ .endOfInput) : after.left < scanner.left := by
  obtain ⟨last, current, success⟩ := Option.bind_eq_some_iff.mp success
  split at success
  next ended =>
    cases success
    exact absurd ended more
  · split at success
    · cases success
    · cases success
    next fresh later read =>
      obtain ⟨linked, there, success⟩ := Option.bind_eq_some_iff.mp success
      cases success
      cases (Chain.get?_append later.chain fresh).symm.trans there
      obtain ⟨beyond, inside, sameSource⟩ := readToken_stop current read more
      rw [left_of_token? current, left_of_token? there, sameSource]
      simp only
      omega

end Progress

/-- Reads to the end of the source. There is no answer in the case of a fault. -/
def finish? (scanner : Scanner) : Option (Except LexicalError Chain) :=
  match _advanced : scanner.advance? with
  | none => none
  | some (.error error, _) => some (.error error)
  | some (.ok token, after) =>
    if _last : token.kind = .endOfInput then some (.ok after.chain) else after.finish?
termination_by scanner.left
decreasing_by exact left_lt_of_advance? _advanced _last

theorem finish?_refused {scanner after : Scanner} {error : LexicalError}
    (advanced : scanner.advance? = some (.error error, after)) :
    scanner.finish? = some (.error error) := by
  rw [finish?]
  split
  next fault => cases advanced.symm.trans fault
  next refused =>
    cases advanced.symm.trans refused
    rfl
  next read => cases advanced.symm.trans read

theorem finish?_read {scanner after : Scanner} {token : Token}
    (advanced : scanner.advance? = some (.ok token, after)) :
    scanner.finish? =
      if token.kind = .endOfInput then some (.ok after.chain) else after.finish? := by
  rw [finish?]
  split
  next fault => cases advanced.symm.trans fault
  next refused => cases advanced.symm.trans refused
  next read =>
    cases advanced.symm.trans read
    rfl

end Scanner

end LinearSystem
