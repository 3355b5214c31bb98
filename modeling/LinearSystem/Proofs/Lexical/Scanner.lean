import LinearSystem.Proofs.Lexical.Calls
import LinearSystem.Proofs.Lexical.Offsets
/-!
Calls of a scanner.

A scanner reads a source as a stream does. The line that it remembers and the place of its last
token in the chain always fit (`Scanner.Reads`), also after a refusal, which leaves both as they
were (`Scanner.refusal_keeps_line`). So every call is answered, and as it is by the stream
(`Scanner.Reads.run?`), and so is reading to the end of the source (`Scanner.Reads.finish?`).
-/
namespace LinearSystem

namespace Scanner

variable {scanner : Scanner}

/-! ### One call -/

/-- A scanner has read what a stream has: it has the same chain, its last token is the current token
of the stream, and it is where the stream is. -/
structure Reads (scanner : Scanner) (stream : TokenStream) : Prop where
  chain : scanner.chain = stream.chain
  current : scanner.token? = some stream.current
  place : stream.current.stop = stream.cursor.offset
  here : scanner.At stream.cursor stream.rest
  exhausted : scanner.exhausted = stream.exhausted

theorem reads_ofSource (source : String) : (ofSource source).Reads (.ofSource source) :=
  ⟨rfl, rfl, rfl, ⟨[], [], rfl, rfl, rfl⟩, rfl⟩

namespace Reads

variable {stream : TokenStream}

theorem advance? (reads : scanner.Reads stream) :
    ∃ after, scanner.advance? = some (stream.advance.1, after) ∧ after.Reads stream.advance.2 := by
  obtain ⟨chain, current, place, here, exhausted⟩ := reads
  unfold Scanner.advance?
  simp only [current, bind, Option.bind]
  by_cases ended : stream.current.kind = .endOfInput
  · rw [if_pos ended, TokenStream.advance, if_pos ended]
    exact ⟨scanner, rfl, chain, current, place, here, exhausted⟩
  · have read := here.readToken current place
    rw [if_neg ended, stream.advance_eq ended]
    cases tokenRead : Token.read stream.cursor stream.rest with
    | error error =>
      -- The lines that were counted up to the refusal are forgotten, so that they still fit.
      simp only [tokenRead] at read
      simp only [read]
      exact ⟨scanner, rfl, chain, current, place, here, exhausted⟩
    | ok part =>
      obtain ⟨token, cursor, rest⟩ := part
      simp only [tokenRead] at read
      obtain ⟨line, lineStart, read, there, stop⟩ := read
      simp only [read, token?, chain, Chain.get?_append]
      exact ⟨{ scanner with
          chain := stream.chain.append token, current := stream.chain.size, line, lineStart },
        rfl, rfl, Chain.get?_append stream.chain token, stop, there, exhausted⟩

theorem with_exhausted (reads : scanner.Reads stream) (exhausted : Bool) :
    Reads { scanner with exhausted := exhausted } { stream with exhausted := exhausted } :=
  ⟨reads.chain, reads.current, reads.place, reads.here, rfl⟩

theorem next? (reads : scanner.Reads stream) :
    ∃ after, scanner.next? = some (stream.next?.1, after) ∧ after.Reads stream.next?.2 := by
  obtain ⟨after, advanced, there⟩ := reads.advance?
  rw [Scanner.next?, stream.next?_eq, reads.exhausted]
  by_cases spent : stream.exhausted = true
  · rw [if_pos spent, if_pos spent]
    exact ⟨scanner, rfl, reads⟩
  · rw [if_neg spent, if_neg spent]
    simp only [advanced, bind, Option.bind]
    cases answer : stream.advance.1 with
    | error error => exact ⟨_, rfl, there.with_exhausted _⟩
    | ok token => exact ⟨_, rfl, there.with_exhausted _⟩

/-- The scanner and the stream come to the end together. -/
theorem finish? (reads : scanner.Reads stream) (more : stream.current.kind ≠ .endOfInput) :
    scanner.finish? = some stream.finish := by
  induction stream using TokenStream.ahead_induction generalizing scanner with
  | ended stream isEnded => exact absurd isEnded more
  | refused stream error _ _ advance =>
    obtain ⟨after, advanced, -⟩ := reads.advance?
    rw [advance] at advanced
    rw [finish?_refused advanced, stream.finish_refused advance]
  | read stream later token _ _ advance current _ _ ih =>
    obtain ⟨after, advanced, there⟩ := reads.advance?
    rw [advance] at advanced there
    rw [finish?_read advanced, stream.finish_read advance]
    split
    · rw [there.chain]
    next notLast => rw [ih there (by rwa [current])]

end Reads

/-! ### Any number of calls -/

/-- The answer to a call, and the scanner after it. -/
def call? (scanner : Scanner) : Call → Option (Answer × Scanner)
  | .advance => scanner.advance?.map fun (answer, after) => (some answer, after)
  | .next => scanner.next?

/-- Calls with their answers, and the scanner after all of them. -/
def run? (scanner : Scanner) : List Call → Option (List (Call × Answer) × Scanner)
  | [] => some ([], scanner)
  | call :: rest => do
    let (answer, after) ← scanner.call? call
    let (answers, final) ← after.run? rest
    return ((call, answer) :: answers, final)

namespace Reads

variable {stream : TokenStream}

theorem call? (reads : scanner.Reads stream) (call : Call) :
    ∃ after, scanner.call? call = some ((stream.call call).1, after) ∧
      after.Reads (stream.call call).2 := by
  cases call with
  | advance =>
    obtain ⟨after, advanced, there⟩ := reads.advance?
    exact ⟨after, by rw [Scanner.call?, advanced]; rfl, there⟩
  | next => exact reads.next?

/-- Any calls are answered, and as they are by the stream. -/
theorem run? (reads : scanner.Reads stream) (calls : List Call) :
    ∃ after, scanner.run? calls = some (stream.history calls, after) ∧
      after.Reads (stream.afterCalls calls) := by
  -- One step of the run is one call.
  induction calls generalizing scanner stream with
  | nil => exact ⟨scanner, rfl, reads⟩
  | cons call rest ih =>
    obtain ⟨after, answered, there⟩ := reads.call? call
    obtain ⟨final, ran, beyond⟩ := ih there
    refine ⟨final, ?_, beyond⟩
    simp only [Scanner.run?, answered, bind, Option.bind, ran]
    rfl

end Reads

/-! ### Refused calls -/

section

variable {after : Scanner} {error : LexicalError}

/-- A refusal takes back the lines that were passed over on the way to it. -/
theorem eq_of_advance?_error (refused : scanner.advance? = some (.error error, after)) :
    after = scanner := by
  obtain ⟨last, -, refused⟩ := Option.bind_eq_some_iff.mp refused
  -- Only a token that has been read moves the scanner on.
  split at refused
  · cases refused
  · split at refused
    · cases refused
    · cases refused
      rfl
    next fresh later read =>
      obtain ⟨linked, -, refused⟩ := Option.bind_eq_some_iff.mp refused
      cases refused

theorem eq_of_call?_error {call : Call}
    (refused : scanner.call? call = some (some (.error error), after)) :
    after = { scanner with exhausted := after.exhausted } := by
  cases call with
  | advance =>
    obtain ⟨⟨answer, there⟩, advanced, same⟩ := Option.map_eq_some_iff.mp refused
    cases same
    rw [eq_of_advance?_error advanced]
  | next =>
    rw [Scanner.call?, Scanner.next?] at refused
    split at refused
    · cases refused
    · obtain ⟨⟨answer, there⟩, advanced, same⟩ := Option.bind_eq_some_iff.mp refused
      cases answer with
      | ok token => cases same
      | error found =>
        cases same
        rw [eq_of_advance?_error advanced]

end

theorem run?_replicate_of_fixed {call : Call} {answer : Answer}
    (fixed : scanner.call? call = some (answer, scanner)) (count : Nat) :
    scanner.run? (List.replicate count call) =
      some (List.replicate count (call, answer), scanner) := by
  induction count with
  | zero => rfl
  | succ count ih =>
    rw [List.replicate_succ, Scanner.run?, fixed, List.replicate_succ]
    simp only [bind, Option.bind, ih]
    rfl

/-- Whatever calls have been made, a call is refused only for the refusal of the source, and it
leaves the chain, the place of the last token, the line and the start of the line as they were. So
it is refused in the same words as often as it is repeated. -/
theorem refusal_keeps_line (source : String) (calls : List Call) :
    ∃ answers scanner, (ofSource source).run? calls = some (answers, scanner) ∧
      ∀ call error after, scanner.call? call = some (some (.error error), after) →
        (TokenStream.ofSource source).ahead.2 = some error ∧
        after.chain = scanner.chain ∧ after.current = scanner.current ∧
        after.line = scanner.line ∧ after.lineStart = scanner.lineStart ∧
        ∀ count, after.run? (List.replicate count .advance) =
          some (List.replicate count (.advance, some (.error error)), after) := by
  obtain ⟨scanner, ran, reads⟩ := (reads_ofSource source).run? calls
  obtain ⟨read, here⟩ :=
    TokenStream.hasRead_afterCalls (TokenStream.hasRead_ofSource source) calls
  refine ⟨_, scanner, ran, ?_⟩
  intro call error after refused
  obtain ⟨there, answered, beyond⟩ := reads.call? call
  obtain ⟨answer, rfl⟩ := Prod.mk.inj (Option.some.inj (answered.symm.trans refused))
  obtain ⟨stops, again⟩ := here.refused_call answer
  have kept := eq_of_call?_error refused
  refine ⟨stops, by rw [kept], by rw [kept], by rw [kept], by rw [kept], ?_⟩
  -- The next call of `advance` is refused too, and so it leaves the scanner once more.
  obtain ⟨later, advanced, -⟩ := beyond.advance?
  rw [again] at advanced
  obtain rfl := eq_of_advance?_error advanced
  exact run?_replicate_of_fixed (by rw [Scanner.call?, advanced]; rfl)

/-- The refusal on the second line leaves the scanner on the first. -/
example : ((ofSource "x\n<").run? [.advance, .advance]).map
    (fun (_, scanner) => (scanner.line, scanner.lineStart)) = some (1, 0) := by
  decide +kernel

end Scanner

end LinearSystem
