import LinearSystem.Proofs.Lexical.Scanner
/-!
How long a source is read.

Every token but the end of the source takes at least one character, so after as many calls as there
are characters left the next call returns the end of the source or a refusal, and so do all calls
after it (`TokenStream.exists_last`). For a scanner, which knows bytes and not characters, the
bounds are the same (`Scanner.reading_ends`).
-/
namespace LinearSystem

theorem utf8Length_pos {text : List Char} (nonempty : text ≠ []) : 0 < utf8Length text := by
  obtain ⟨c, rest, rfl⟩ := List.exists_cons_of_ne_nil nonempty
  have size := c.utf8Size_pos
  rw [utf8Length_cons]
  omega

/-- A token that is read starts where it is read from or after layout, and has a text. -/
theorem Token.start_of_read {cursor after : Cursor} {text rest : List Char} {token : Token}
    (success : read cursor text = .ok (token, after, rest)) (more : token.kind ≠ .endOfInput) :
    cursor.offset ≤ token.start ∧ token.start < token.stop := by
  have layout : cursor.offset ≤ (skipLayout cursor text).1.offset := by
    rw [skipLayout_eq, cursor.offset_over fun c => List.mem_takeWhile_imp]
    exact Nat.le_add_right ..
  -- After the layout the text ends, or else a lexeme is read, and no lexeme is empty.
  unfold read at success
  generalize skipLayout cursor text = skipped at layout success
  obtain ⟨place, left⟩ := skipped
  dsimp only at layout success
  split at success
  · cases success
    exact absurd rfl more
  · split at success
    · cases success
    next lexeme _ lexemeRead =>
      cases success
      have taken := utf8Length_pos (Lexeme.read_ne_nil lexemeRead)
      refine ⟨layout, ?_⟩
      simp only [unlinked, Cursor.past]
      omega

namespace TokenStream

theorem start_of_advance {stream : TokenStream} {token : Token}
    (success : stream.advance.1 = .ok token) (more : token.kind ≠ .endOfInput) :
    stream.cursor.offset ≤ token.start ∧ token.start < token.stop := by
  unfold advance at success
  split at success
  next ended =>
    cases success
    exact absurd ended more
  · split at success
    · cases success
    next read =>
      -- The links that it is given are no part of where it stands.
      cases success
      have starts := Token.start_of_read read more
      exact starts

/-! ### Calls in a row -/

theorem history_advance (stream : TokenStream) (count : Nat) :
    stream.history (List.replicate (count + 1) .advance) =
      (.advance, some stream.advance.1) ::
        stream.advance.2.history (List.replicate count .advance) := rfl

/-- A call that changes nothing is answered again and again. -/
theorem history_of_fixed {stream : TokenStream} {answer : Except LexicalError Token}
    (fixed : stream.advance = (answer, stream)) (count : Nat) :
    ∀ call ∈ stream.history (List.replicate count .advance), call = (.advance, some answer) := by
  induction count with
  | zero => simp [history]
  | succ count ih =>
    rw [history_advance, fixed]
    exact List.forall_mem_cons.mpr ⟨rfl, ih⟩

/-- After as many calls as there are characters left, every further call has the same answer, the
end of the source or a refusal. -/
theorem exists_last (stream : TokenStream) :
    ∃ last : Answer, last.isLast = true ∧
      ∀ count, ∀ call ∈ (stream.history (List.replicate count .advance)).drop stream.rest.length,
        call = (.advance, last) := by
  induction stream using ahead_induction with
  | ended stream isEnded =>
    have fixed := advance_of_ended isEnded
    refine ⟨some (.ok stream.current), by simpa [Answer.isLast] using isEnded, ?_⟩
    exact fun count call member => history_of_fixed fixed count call (List.mem_of_mem_drop member)
  | refused stream error _ _ fixed =>
    refine ⟨some (.error error), rfl, ?_⟩
    exact fun count call member => history_of_fixed fixed count call (List.mem_of_mem_drop member)
  | read stream after token _ _ advanced current _ _ ih =>
    obtain ⟨last, isLast, others⟩ := ih
    by_cases ended : token.kind = .endOfInput
    · -- The end of the source that has just been read is read again from now on.
      have fixed : after.advance = (.ok token, after) := by
        rw [advance_of_ended (by rw [current, ended]), current]
      refine ⟨some (.ok token), by simpa [Answer.isLast] using ended, fun count call member => ?_⟩
      cases count with
      | zero => simp [history] at member
      | succ count =>
        rw [history_advance, advanced] at member
        rcases List.mem_cons.mp (List.mem_of_mem_drop member) with rfl | member
        · rfl
        · exact history_of_fixed fixed count call member
    · -- One character at least is gone with the token, and one call as well.
      have shorter := advance_length_lt advanced ended
      refine ⟨last, isLast, fun count call member => ?_⟩
      cases count with
      | zero => simp [history] at member
      | succ count =>
        rw [history_advance, advanced] at member
        obtain ⟨further, length⟩ := Nat.exists_eq_add_of_lt shorter
        rw [length, List.drop_succ_cons] at member
        exact others count call (List.drop_subset_drop_left _ (Nat.le_add_right ..) member)

@[simp] theorem length_history (stream : TokenStream) (calls : List Call) :
    (stream.history calls).length = calls.length := by
  induction calls generalizing stream with
  | nil => rfl
  | cons call rest ih => simp [history, ih]

/-- A chain that is read to its end grows by as many tokens as there are characters left, at most,
and by the end of the source. -/
theorem size_le_of_finish {stream : TokenStream} (more : stream.current.kind ≠ .endOfInput)
    {chain : Chain} (finished : stream.finish = .ok chain) :
    chain.size ≤ stream.chain.size + stream.rest.length + 1 := by
  induction stream using ahead_induction with
  | ended stream isEnded => exact absurd isEnded more
  | refused stream error _ _ refused =>
    rw [stream.finish_refused refused] at finished
    cases finished
  | read stream after token _ _ advanced current appended _ ih =>
    have size : after.chain.size = stream.chain.size + 1 := by rw [appended, Chain.size_append]
    rw [finish_read advanced] at finished
    split at finished
    · cases finished
      omega
    next going =>
      have shorter := advance_length_lt advanced going
      have bound := ih (by rwa [current]) finished
      omega

end TokenStream

/-! ### Calls of a scanner -/

namespace Scanner

namespace Reads

variable {scanner : Scanner} {stream : TokenStream}

/-- A scanner comes to its last answer as the stream does. -/
theorem exists_last (reads : scanner.Reads stream) :
    ∃ last : Answer, last.isLast = true ∧ ∀ count, ∃ answers after,
      scanner.run? (List.replicate count .advance) = some (answers, after) ∧
      answers.length = count ∧
      ∀ call ∈ answers.drop stream.rest.length, call = (.advance, last) := by
  obtain ⟨last, isLast, others⟩ := stream.exists_last
  refine ⟨last, isLast, fun count => ?_⟩
  obtain ⟨after, ran, -⟩ := reads.run? (List.replicate count .advance)
  exact ⟨_, after, ran, by simp, others count⟩

/-- A token that a scanner reads starts where the last one stops or later, and takes bytes. -/
theorem start_of_advance? (reads : scanner.Reads stream) {after : Scanner} {token : Token}
    (advanced : scanner.advance? = some (.ok token, after)) (more : token.kind ≠ .endOfInput) :
    stream.current.stop ≤ token.start ∧ token.start < token.stop ∧ after.left < scanner.left := by
  obtain ⟨_, answered, -⟩ := reads.advance?
  obtain ⟨answer, -⟩ := Prod.mk.inj (Option.some.inj (answered.symm.trans advanced))
  -- The stream reads the same token from the place where the last one stops.
  obtain ⟨starts, stops⟩ := TokenStream.start_of_advance answer more
  rw [← reads.place] at starts
  exact ⟨starts, stops, left_lt_of_advance? advanced more⟩

end Reads

/-- A scanner that is asked again and again comes to the end of the source or to a refusal with one
call more than there are characters, at the latest, and that is its answer from then on. After any
calls, a token that is read and is not the end of the source has a text, starts where the token
before it stops or later, and leaves fewer bytes to read. So reading to the end has an outcome, and
a chain that is read has two tokens more than the source has characters, at most. -/
theorem reading_ends (source : String) :
    let start := ofSource source
    (∃ last : Answer, last.isLast = true ∧ ∀ count, ∃ answers after,
      start.run? (List.replicate count .advance) = some (answers, after) ∧
      answers.length = count ∧ ∀ call ∈ answers.drop source.length, call = (.advance, last)) ∧
    (∀ calls, ∃ answers scanner previous,
      start.run? calls = some (answers, scanner) ∧ scanner.token? = some previous ∧
      ∀ token after, scanner.advance? = some (.ok token, after) → token.kind ≠ .endOfInput →
        previous.stop ≤ token.start ∧ token.start < token.stop ∧ after.left < scanner.left) ∧
    ∃ outcome, start.finish? = some outcome ∧
      ∀ chain, outcome = .ok chain → chain.size ≤ source.length + 2 := by
  intro start
  have reads : start.Reads (.ofSource source) := reads_ofSource source
  have characters : (TokenStream.ofSource source).rest.length = source.length :=
    source.length_toList
  have more := TokenStream.more_ofSource source
  rw [← characters]
  refine ⟨reads.exists_last, fun calls => ?_, _, reads.finish? more, fun chain finished => ?_⟩
  · obtain ⟨scanner, ran, there⟩ := reads.run? calls
    exact ⟨_, scanner, _, ran, there.current, fun _ _ => there.start_of_advance?⟩
  · -- One token stands in the chain before the first call.
    have bound := TokenStream.size_le_of_finish more finished
    have first : (TokenStream.ofSource source).chain.size = 1 := rfl
    omega

/-- The bound is reached where every character is a lexeme. -/
example : (Chain.ofSource "2*x").map Chain.size = .ok 5 := by decide +kernel

end Scanner

end LinearSystem
