import LinearSystem.Token.Chain
import LinearSystem.Token.Lexeme
/-!
Reading tokens from a source, one at a time.

A `TokenStream` keeps the chain read so far and what is left of the source. `advance` reads one more
token and links it; at the end of the source it returns the last token again, and a refusal leaves
the stream as it was, so that it is repeated. `next?` also ends: after the last token or a refusal
it returns nothing more. Every token that is read takes at least one character
(`advance_length_lt`), so reading to the end terminates.

A line ends at a line feed, at a carriage return, or at both in this order taken as one.
-/
namespace LinearSystem

/-- A refusal, at its place in the source. -/
structure LexicalError where
  place : Cursor
  cause : LexicalCause
  deriving DecidableEq, Repr

/-- Passes over blanks and line ends. -/
def skipLayout (cursor : Cursor) : List Char → Cursor × List Char
  | [] => (cursor, [])
  | '\r' :: '\n' :: rest => skipLayout (cursor.nextLine 2) rest
  | '\r' :: rest => skipLayout (cursor.nextLine 1) rest
  | '\n' :: rest => skipLayout (cursor.nextLine 1) rest
  | c :: rest =>
    if Text.isBlank c then skipLayout (cursor.past [c]) rest else (cursor, c :: rest)

/-- Reads the next token of a text that starts at a place, with the place after it and the text
that is left. -/
def Token.read (cursor : Cursor) (text : List Char) :
    Except LexicalError (Token × Cursor × List Char) :=
  let (cursor, text) := skipLayout cursor text
  match text with
  | [] => .ok (Token.unlinked .endOfInput [] cursor cursor, cursor, [])
  | first :: rest =>
    match Lexeme.read first rest with
    | .error refusal => .error ⟨cursor.past ((first :: rest).take refusal.after), refusal.cause⟩
    | .ok (lexeme, rest) =>
      let after := cursor.past lexeme.text
      .ok (Token.unlinked lexeme.kind lexeme.text cursor after, after, rest)

/-- A source that is being read: the chain of the tokens so far, the last of them, the place after
it with the text from there on, and whether `next?` has come to its end. -/
structure TokenStream where
  source : String
  chain : Chain
  current : Token
  cursor : Cursor
  rest : List Char
  exhausted : Bool
  deriving DecidableEq, Repr

namespace TokenStream

/-- A source before its first token. -/
def ofSource (source : String) : TokenStream :=
  let first := Token.unlinked .startOfInput [] Cursor.start Cursor.start
  { source := source
    chain := Chain.empty.append first
    current := { first with index := 0, prev := none, next := none }
    cursor := Cursor.start
    rest := source.toList
    exhausted := false }

/-- Reads one more token and links it to the chain. -/
def advance (stream : TokenStream) : Except LexicalError Token × TokenStream :=
  if stream.current.kind = .endOfInput then (.ok stream.current, stream)
  else
    match Token.read stream.cursor stream.rest with
    -- The place and the rest stay before the blanks, which are passed over again next time.
    | .error error => (.error error, stream)
    | .ok (token, cursor, rest) =>
      let index := stream.chain.size
      let token := { token with index := index, prev := Chain.before? index, next := none }
      (.ok token,
        { stream with chain := stream.chain.append token, current := token, cursor, rest })

/-- Reads one more token, or nothing after the last token or a refusal has been returned. -/
def next? (stream : TokenStream) : Option (Except LexicalError Token) × TokenStream :=
  if stream.exhausted then (none, stream)
  else
    match stream.advance with
    | (.ok token, stream) =>
      (some (.ok token), { stream with exhausted := token.kind = .endOfInput })
    | (.error error, stream) => (some (.error error), { stream with exhausted := true })

/-! ### Progress -/

theorem skipLayout_length_le (cursor : Cursor) (text : List Char) :
    (skipLayout cursor text).2.length ≤ text.length := by
  fun_induction skipLayout cursor text <;> simp only [List.length_cons] at * <;> omega

theorem read_length_lt {cursor after : Cursor} {text rest : List Char} {token : Token}
    (success : Token.read cursor text = .ok (token, after, rest))
    (more : token.kind ≠ .endOfInput) : rest.length < text.length := by
  have shorter := skipLayout_length_le cursor text
  unfold Token.read at success
  generalize skipLayout cursor text = skipped at shorter success
  obtain ⟨place, left⟩ := skipped
  simp only at shorter success
  split at success
  · cases success
    exact absurd rfl more
  · split at success
    · cases success
    next lexemeRead =>
      cases success
      have := Lexeme.read_length_lt lexemeRead
      simp only [List.length_cons] at shorter
      omega

/-- Reading a token other than the last takes characters away. -/
theorem advance_length_lt {stream after : TokenStream} {token : Token}
    (success : stream.advance = (.ok token, after)) (more : token.kind ≠ .endOfInput) :
    after.rest.length < stream.rest.length := by
  unfold advance at success
  split at success
  next ended =>
    cases success
    exact absurd ended more
  · split at success
    · cases success
    next tokenRead =>
      cases success
      exact read_length_lt tokenRead more

/-- Everything that `next?` will return, in order. -/
def toList (stream : TokenStream) : List (Except LexicalError Token) :=
  if stream.exhausted then []
  else
    match _advanced : stream.advance with
    | (.error error, _) => [.error error]
    | (.ok token, after) =>
      if _last : token.kind = .endOfInput then [.ok token] else .ok token :: after.toList
termination_by stream.rest.length
decreasing_by exact advance_length_lt _advanced _last

/-- Reads to the end of the source. -/
def finish (stream : TokenStream) : Except LexicalError Chain :=
  match _advanced : stream.advance with
  | (.error error, _) => .error error
  | (.ok token, after) =>
    if _last : token.kind = .endOfInput then .ok after.chain else after.finish
termination_by stream.rest.length
decreasing_by exact advance_length_lt _advanced _last

theorem finish_refused {stream after : TokenStream} {error : LexicalError}
    (advanced : stream.advance = (.error error, after)) : stream.finish = .error error := by
  rw [finish]
  split
  next refused =>
    cases advanced.symm.trans refused
    rfl
  next read => cases advanced.symm.trans read

theorem finish_read {stream after : TokenStream} {token : Token}
    (advanced : stream.advance = (.ok token, after)) :
    stream.finish = if token.kind = .endOfInput then .ok after.chain else after.finish := by
  rw [finish]
  split
  next refused => cases advanced.symm.trans refused
  next read =>
    cases advanced.symm.trans read
    rfl

end TokenStream

/-- The whole chain of a source. -/
def Chain.ofSource (source : String) : Except LexicalError Chain :=
  (TokenStream.ofSource source).finish

end LinearSystem
