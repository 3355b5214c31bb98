import LinearSystem.Proofs.Chain.Linked
/-!
Reading a source by calls.

A stream is read on by `advance` and by `next?`, which share its state. What a source has to say is
fixed before the first call: its tokens in order and the refusal that stops them, if one does
(`TokenStream.ahead`). Whatever calls have been made, the stream has read a number of these tokens,
and how many is all that the next answer depends on, but for `next?` being at its end
(`TokenStream.answers_in_order`).
-/
namespace LinearSystem

/-- The two ways to ask for a token. -/
inductive Call where
  | advance
  | next
  deriving DecidableEq, Repr

/-- What a call returns; nothing where `next?` has come to its end. -/
abbrev Answer := Option (Except LexicalError Token)

/-- The end of a source, or a refusal. -/
def Answer.isLast : Answer → Bool
  | some (.ok token) => token.kind = .endOfInput
  | some (.error _) => true
  | none => false

namespace TokenStream

/-- The answer to a call, and the stream after it. -/
def call (stream : TokenStream) : Call → Answer × TokenStream
  | .advance => (some stream.advance.1, stream.advance.2)
  | .next => stream.next?

def afterCalls (stream : TokenStream) (calls : List Call) : TokenStream :=
  calls.foldl (fun stream call => (stream.call call).2) stream

/-- Calls with their answers. -/
def history (stream : TokenStream) : List Call → List (Call × Answer)
  | [] => []
  | call :: rest => (call, (stream.call call).1) :: (stream.call call).2.history rest

/-- A call of `next?` that returned the end of the source or a refusal. -/
def isFinal : Call × Answer → Bool
  | (.next, answer) => answer.isLast
  | (.advance, _) => false

/-- The tokens that `advance` has still to return, up to the end of the source or up to the first
refusal. -/
def ahead (stream : TokenStream) : List Token × Option LexicalError :=
  if _ended : stream.current.kind = .endOfInput then ([], none)
  else
    match _advanced : stream.advance with
    | (.error error, _) => ([], some error)
    | (.ok token, after) => (token :: after.ahead.1, after.ahead.2)
termination_by if stream.current.kind = .endOfInput then 0 else stream.rest.length + 1
decreasing_by
  have current : after.current = token := by
    rw [advance_eq stream _ended] at _advanced
    split at _advanced <;> cases _advanced
    rfl
  by_cases last : token.kind = .endOfInput
  · simp [current, last, _ended]
  · have shorter := advance_length_lt _advanced last
    simp only [current, last, _ended, if_false]
    omega

/-! ### One call -/

theorem ahead_of_ended {stream : TokenStream} (ended : stream.current.kind = .endOfInput) :
    stream.ahead = ([], none) := by
  rw [ahead, dif_pos ended]

theorem advance_of_ended {stream : TokenStream} (ended : stream.current.kind = .endOfInput) :
    stream.advance = (.ok stream.current, stream) := by
  rw [advance, if_pos ended]

/-- What a call of `advance` does: at the end of the source nothing, at a refusal nothing, and
otherwise it links one token to the chain. -/
theorem advance_cases (stream : TokenStream) :
    (stream.current.kind = .endOfInput ∧ stream.ahead = ([], none) ∧
      stream.advance = (.ok stream.current, stream)) ∨
    (∃ error, stream.current.kind ≠ .endOfInput ∧ stream.ahead = ([], some error) ∧
      stream.advance = (.error error, stream)) ∨
    ∃ token cursor rest,
      let after := { stream with chain := stream.chain.append token, current := token, cursor, rest }
      stream.current.kind ≠ .endOfInput ∧ token.next = none ∧ after.chain.last? = some token ∧
        stream.ahead = (token :: after.ahead.1, after.ahead.2) ∧
        stream.advance = (.ok token, after) := by
  by_cases ended : stream.current.kind = .endOfInput
  · exact .inl ⟨ended, ahead_of_ended ended, advance_of_ended ended⟩
  · right
    have advances := stream.advance_eq ended
    cases read : Token.read stream.cursor stream.rest with
    | error error =>
      left
      simp only [read] at advances
      refine ⟨error, ended, ?_, advances⟩
      rw [ahead, dif_neg ended]
      split
      next advanced => cases advances.symm.trans advanced; rfl
      next advanced => cases advances.symm.trans advanced
    | ok part =>
      right
      obtain ⟨plain, cursor, rest⟩ := part
      simp only [read] at advances
      refine ⟨_, cursor, rest, ended, rfl, by simp [Chain.append, Chain.last?], ?_, advances⟩
      rw [ahead, dif_neg ended]
      split
      next advanced => cases advances.symm.trans advanced
      next advanced => cases advances.symm.trans advanced; rfl

theorem next?_eq (stream : TokenStream) :
    stream.next? =
      if stream.exhausted then (none, stream)
      else (some stream.advance.1,
        { stream.advance.2 with exhausted := Answer.isLast (some stream.advance.1) }) := by
  unfold next?
  split
  · rfl
  · split
    next advanced => rw [advanced]; rfl
    next advanced => rw [advanced]; rfl

/-- Streams are followed to the end of their source or to a refusal. -/
theorem ahead_induction {motive : TokenStream → Prop}
    (ended : ∀ stream : TokenStream, stream.current.kind = .endOfInput → motive stream)
    (refused : ∀ (stream : TokenStream) (error : LexicalError),
      stream.current.kind ≠ .endOfInput → stream.ahead = ([], some error) →
        stream.advance = (.error error, stream) → motive stream)
    (read : ∀ (stream after : TokenStream) (token : Token),
      stream.current.kind ≠ .endOfInput → stream.ahead = (token :: after.ahead.1, after.ahead.2) →
        stream.advance = (.ok token, after) → after.current = token →
          after.chain = stream.chain.append token → token.next = none → motive after →
            motive stream)
    (stream : TokenStream) : motive stream := by
  fun_induction ahead stream with
  | case1 stream isEnded => exact ended stream isEnded
  | case2 stream more error after advanced =>
    rcases stream.advance_cases with
      ⟨isEnded, -⟩ | ⟨found, -, ahead, advance⟩ | ⟨token, cursor, rest, -, -, -, -, advance⟩
    · exact absurd isEnded more
    · exact refused stream found more ahead advance
    · cases advanced.symm.trans advance
  | case3 stream more token after advanced ih =>
    rcases stream.advance_cases with
      ⟨isEnded, -⟩ | ⟨found, -, -, advance⟩ |
        ⟨found, cursor, rest, -, unlinked, -, ahead, advance⟩
    · exact absurd isEnded more
    · cases advanced.symm.trans advance
    · cases advanced.symm.trans advance
      exact read stream _ _ more ahead advance rfl rfl unlinked ih

theorem advance_with_exhausted (stream : TokenStream) (exhausted : Bool) :
    { stream with exhausted := exhausted }.advance =
      (stream.advance.1, { stream.advance.2 with exhausted := exhausted }) := by
  unfold advance
  split
  · rfl
  · dsimp only
    split <;> rfl

/-- The flag that ends `next?` is nothing to `advance`. -/
theorem ahead_with_exhausted (stream : TokenStream) (exhausted : Bool) :
    { stream with exhausted := exhausted }.ahead = stream.ahead := by
  have advances := stream.advance_with_exhausted exhausted
  induction stream using ahead_induction with
  | ended stream isEnded =>
    rw [ahead_of_ended isEnded, ahead_of_ended (by exact isEnded)]
  | refused stream error more ahead advance =>
    rcases advance_cases { stream with exhausted := exhausted } with
      ⟨isEnded, -⟩ | ⟨found, -, same, other⟩ | ⟨token, cursor, rest, -, -, -, -, other⟩
    · exact absurd isEnded more
    · rw [advance, other] at advances
      cases advances
      rw [same, ahead]
    · rw [advance, other] at advances
      cases advances
  | read stream after token more ahead advance _ _ _ ih =>
    rcases advance_cases { stream with exhausted := exhausted } with
      ⟨isEnded, -⟩ | ⟨found, -, -, other⟩ | ⟨found, cursor, rest, -, -, -, same, other⟩
    · exact absurd isEnded more
    · rw [advance, other] at advances
      cases advances
    · rw [advance, other] at advances
      obtain ⟨answers, streams⟩ := Prod.mk.inj advances
      cases answers
      rw [same, ahead, streams, ih (after.advance_with_exhausted exhausted)]

theorem exhausted_advance (stream : TokenStream) :
    stream.advance.2.exhausted = stream.exhausted := by
  rcases stream.advance_cases with
    ⟨-, -, advance⟩ | ⟨error, -, -, advance⟩ | ⟨token, cursor, rest, -, -, -, -, advance⟩
  · rw [advance]
  · rw [advance]
  · rw [advance]

/-- Where `next?` has not come to its end, both calls return what `advance` does. -/
theorem call_eq {stream : TokenStream} {call : Call}
    (going : ¬(call = .next ∧ stream.exhausted = true)) :
    stream.call call = (some stream.advance.1, { stream.advance.2 with
      exhausted := stream.exhausted || isFinal (call, some stream.advance.1) }) := by
  cases call with
  | advance =>
    have same := stream.exhausted_advance
    simp [TokenStream.call, isFinal, ← same]
  | next =>
    have fresh : stream.exhausted = false := by simpa using going
    rw [TokenStream.call, next?_eq, fresh]
    rfl

theorem call_next_of_exhausted {stream : TokenStream} (exhausted : stream.exhausted = true) :
    stream.call .next = (none, stream) := by
  rw [call, next?_eq, if_pos exhausted]

theorem exhausted_call (stream : TokenStream) (call : Call) :
    (stream.call call).2.exhausted =
      (stream.exhausted || isFinal (call, (stream.call call).1)) := by
  by_cases going : call = .next ∧ stream.exhausted = true
  · obtain ⟨rfl, exhausted⟩ := going
    rw [call_next_of_exhausted exhausted, exhausted]
    rfl
  · rw [call_eq going]

/-! ### Tokens in order -/

/-- A stream that has read some of the tokens of a source and has the others ahead. -/
structure HasRead (tokens : List Token) (error : Option LexicalError) (read : List Token)
    (stream : TokenStream) : Prop where
  chain : stream.chain = Chain.link read
  last : stream.chain.last? = some stream.current
  current : read.getLast? = some stream.current
  whole : tokens = read ++ stream.ahead.1
  error : stream.ahead.2 = error

variable {tokens read : List Token} {error : Option LexicalError} {stream : TokenStream}

theorem HasRead.with_exhausted (here : HasRead tokens error read stream) (exhausted : Bool) :
    HasRead tokens error read { stream with exhausted := exhausted } := by
  obtain ⟨chain, last, current, whole, stops⟩ := here
  rw [← stream.ahead_with_exhausted exhausted] at whole stops
  exact ⟨chain, last, current, whole, stops⟩

/-- Where no token is left, the refusal is returned that stops the tokens, or the current token,
which is the end of the source. -/
def lastAnswer (error : Option LexicalError) (current : Token) : Except LexicalError Token :=
  match error with
  | some error => .error error
  | none => .ok current

theorem HasRead.advance (here : HasRead tokens error read stream) :
    (∃ token, tokens[read.length]? = some token ∧ stream.advance.1 = .ok token ∧
      HasRead tokens error (read ++ [token]) stream.advance.2) ∨
    tokens[read.length]? = none ∧
      stream.advance = (lastAnswer error stream.current, stream) := by
  obtain ⟨chain, -, current, whole, stops⟩ := here
  rcases stream.advance_cases with
    ⟨-, ahead, advance⟩ | ⟨found, -, ahead, advance⟩ |
      ⟨token, cursor, rest, -, -, last, ahead, advance⟩
  · right
    rw [ahead] at whole stops
    exact ⟨by simp [whole], by rw [advance, ← stops]; rfl⟩
  · right
    rw [ahead] at whole stops
    exact ⟨by simp [whole], by rw [advance, ← stops]; rfl⟩
  · left
    rw [ahead] at whole stops
    refine ⟨token, by simp [whole], by rw [advance], ?_⟩
    rw [advance]
    refine ⟨?_, last, by simp, by simp [whole], stops⟩
    rw [Chain.link_append_singleton, ← chain]

theorem HasRead.ended_iff (here : HasRead tokens error read stream) :
    stream.current.kind = .endOfInput ↔ tokens[read.length]? = none ∧ error = none := by
  obtain ⟨-, -, -, whole, stops⟩ := here
  rcases stream.advance_cases with
    ⟨ended, ahead, -⟩ | ⟨found, more, ahead, -⟩ | ⟨token, cursor, rest, more, -, -, ahead, -⟩
  · rw [ahead] at whole stops
    simp [ended, whole, ← stops]
  · rw [ahead] at whole stops
    simp [more, ← stops]
  · rw [ahead] at whole
    simp [more, whole]

/-- What a call does: nothing where `next?` is at its end, and otherwise it brings the next token or,
where there is none, the last answer again. -/
theorem HasRead.call_cases (here : HasRead tokens error read stream) (call : Call) :
    ((call = .next ∧ stream.exhausted = true) ∧ stream.call call = (none, stream)) ∨
    ¬(call = .next ∧ stream.exhausted = true) ∧
      ((∃ token, tokens[read.length]? = some token ∧
          (stream.call call).1 = some (.ok token) ∧
          HasRead tokens error (read ++ [token]) (stream.call call).2) ∨
        tokens[read.length]? = none ∧
          (stream.call call).1 = some (lastAnswer error stream.current) ∧
          (stream.call call).2 = { stream with exhausted := (stream.call call).2.exhausted } ∧
          (call = .advance → (stream.call call).2 = stream)) := by
  by_cases ended : call = .next ∧ stream.exhausted = true
  · obtain ⟨rfl, exhausted⟩ := ended
    exact .inl ⟨⟨rfl, exhausted⟩, call_next_of_exhausted exhausted⟩
  · right
    refine ⟨ended, ?_⟩
    rw [call_eq ended]
    rcases here.advance with ⟨token, next, advance, further⟩ | ⟨none, advance⟩
    · left
      exact ⟨token, next, by rw [advance], further.with_exhausted _⟩
    · right
      rw [advance]
      refine ⟨none, rfl, rfl, ?_⟩
      rintro rfl
      simp [isFinal]

theorem lastAnswer_eq_error {current : Token} {found : LexicalError} :
    lastAnswer error current = .error found ↔ error = some found := by
  cases error <;> simp [lastAnswer]

/-- A call is refused only for what stops the tokens, and the stream stands before it then. -/
theorem HasRead.refused_call (here : HasRead tokens error read stream) {call : Call}
    {found : LexicalError} (refused : (stream.call call).1 = some (.error found)) :
    error = some found ∧ (stream.call call).2.advance = (.error found, (stream.call call).2) := by
  rcases here.call_cases call with
    ⟨-, same⟩ | ⟨-, ⟨token, -, answer, -⟩ | ⟨none, answer, same, -⟩⟩
  · rw [same] at refused
    cases refused
  · cases refused.symm.trans answer
  · have last := Option.some.inj (answer.symm.trans refused)
    refine ⟨lastAnswer_eq_error.mp last, ?_⟩
    -- The call may have ended `next?`, which is nothing to `advance`.
    rw [same]
    rcases (here.with_exhausted (stream.call call).2.exhausted).advance with
      ⟨token, next, -⟩ | ⟨-, advance⟩
    · cases none.symm.trans next
    · exact advance.trans (congrArg (·, _) last)

theorem HasRead.exists_call (here : HasRead tokens error read stream) (call : Call) :
    ∃ further, HasRead tokens error (read ++ further) (stream.call call).2 := by
  rcases here.call_cases call with
    ⟨-, same⟩ | ⟨-, ⟨token, -, -, there⟩ | ⟨-, -, same, -⟩⟩
  · rw [same]
    exact ⟨[], by rwa [List.append_nil]⟩
  · exact ⟨[token], there⟩
  · rw [same]
    exact ⟨[], by simpa using here.with_exhausted _⟩

/-! ### Any number of calls -/

theorem afterCalls_append (stream : TokenStream) (first second : List Call) :
    stream.afterCalls (first ++ second) = (stream.afterCalls first).afterCalls second :=
  List.foldl_append

theorem history_append (stream : TokenStream) (first second : List Call) :
    stream.history (first ++ second) =
      stream.history first ++ (stream.afterCalls first).history second := by
  induction first generalizing stream with
  | nil => rfl
  | cons call rest ih => simp [history, ih, afterCalls]

/-- What has been read stays read. -/
theorem hasRead_afterCalls (here : HasRead tokens error read stream) (calls : List Call) :
    ∃ further, HasRead tokens error (read ++ further) (stream.afterCalls calls) := by
  induction calls generalizing read stream with
  | nil => exact ⟨[], by rwa [List.append_nil]⟩
  | cons call rest ih =>
    obtain ⟨next, there⟩ := here.exists_call call
    obtain ⟨later, beyond⟩ := ih there
    exact ⟨next ++ later, by rwa [← List.append_assoc]⟩

theorem exhausted_afterCalls (fresh : stream.exhausted = false) (calls : List Call) :
    (stream.afterCalls calls).exhausted = (stream.history calls).any isFinal := by
  induction calls using List.reverseRecOn with
  | nil => exact fresh
  | append_singleton calls call ih =>
    rw [afterCalls_append, history_append, List.any_append, ← ih]
    simp only [afterCalls, List.foldl_cons, List.foldl_nil, history, List.any_cons, List.any_nil,
      Bool.or_false]
    exact exhausted_call _ call

/-- Of all calls of `next?` one at most returns the end of the source or a refusal. -/
theorem countP_isFinal_le_one (fresh : stream.exhausted = false) (calls : List Call) :
    (stream.history calls).countP isFinal ≤ 1 := by
  induction calls using List.reverseRecOn with
  | nil => simp [history]
  | append_singleton calls call ih =>
    have flag := exhausted_afterCalls fresh calls
    rw [history_append, List.countP_append]
    simp only [history, List.countP_singleton]
    cases spent : (stream.history calls).any isFinal with
    | false =>
      -- No answer before this one was final.
      have none : (stream.history calls).countP isFinal = 0 := by simpa using spent
      rw [none]
      split <;> omega
    | true =>
      have silent : isFinal (call, ((stream.afterCalls calls).call call).1) = false := by
        cases call with
        | advance => rfl
        | next => rw [call_next_of_exhausted (flag.trans spent)]; rfl
      simpa [silent] using ih

/-! ### Collecting -/

theorem toList_of_exhausted {stream : TokenStream} (exhausted : stream.exhausted = true) :
    stream.toList = [] := by
  rw [toList, if_pos exhausted]

/-- Collecting is calling `next?` until it returns nothing. -/
theorem toList_eq (stream : TokenStream) :
    stream.toList = stream.next?.1.toList ++ stream.next?.2.toList := by
  by_cases exhausted : stream.exhausted = true
  · simp [next?_eq, toList_of_exhausted, exhausted]
  · have fresh : stream.exhausted = false := by simpa using exhausted
    have kept := stream.exhausted_advance
    rw [toList, next?_eq, if_neg exhausted, if_neg exhausted]
    split
    next error after advanced =>
      have ended : { after with exhausted := true }.toList = [] := toList_of_exhausted rfl
      simp [advanced, Answer.isLast, ended]
    next token after advanced =>
      rw [advanced] at kept ⊢
      by_cases last : token.kind = .endOfInput
      · have ended : { after with exhausted := true }.toList = [] := toList_of_exhausted rfl
        simp [Answer.isLast, last, ended]
      · have same : { after with exhausted := false } = after := by rw [← fresh, ← kept]
        simp [Answer.isLast, last, same]

/-- The answers to `next?` alone are the collected ones, and nothing after them. -/
theorem history_replicate_next (stream : TokenStream) (count : Nat) :
    (stream.history (List.replicate count .next)).map Prod.snd =
      (List.range count).map fun place => stream.toList[place]? := by
  induction count generalizing stream with
  | zero => rfl
  | succ count ih =>
    rw [List.replicate_succ, history, List.map_cons, ih, List.range_succ_eq_map, List.map_cons,
      List.map_map, stream.toList_eq]
    by_cases exhausted : stream.exhausted = true
    · simp [call_next_of_exhausted exhausted, next?_eq, exhausted, toList_of_exhausted,
        Function.comp_def]
    · simp [call, next?_eq, exhausted, Function.comp_def]

/-- A source before its end is collected token by token, and with its refusal. -/
theorem toList_eq_ahead {stream : TokenStream} (fresh : stream.exhausted = false)
    (more : stream.current.kind ≠ .endOfInput) :
    stream.toList = stream.ahead.1.map Except.ok ++ stream.ahead.2.toList.map Except.error := by
  have kept := stream.exhausted_advance
  induction stream using ahead_induction with
  | ended stream isEnded => exact absurd isEnded more
  | refused stream error _ ahead advance =>
    have ended : { stream with exhausted := true }.toList = [] := toList_of_exhausted rfl
    rw [toList_eq, next?_eq, fresh, advance, ahead]
    simp [Answer.isLast, ended]
  | read stream after token _ ahead advance current chain _ ih =>
    rw [advance, fresh] at kept
    rw [toList_eq, next?_eq, fresh, advance, ahead]
    by_cases last : token.kind = .endOfInput
    · have ended : { after with exhausted := true }.toList = [] := toList_of_exhausted rfl
      have nothing : after.ahead = ([], none) := ahead_of_ended (by rw [current, last])
      simp [Answer.isLast, last, ended, nothing]
    · have same : { after with exhausted := false } = after := by rw [← kept]
      have later := ih kept (by rw [current]; exact last) after.exhausted_advance
      simp [Answer.isLast, last, same, later]

/-- Reading to the end gives the chain of all tokens, or the refusal. -/
theorem finish_eq_ahead {stream : TokenStream} (more : stream.current.kind ≠ .endOfInput) :
    stream.finish =
      match stream.ahead.2 with
      | none => .ok (stream.ahead.1.foldl Chain.append stream.chain)
      | some error => .error error := by
  induction stream using ahead_induction with
  | ended stream isEnded => exact absurd isEnded more
  | refused stream error _ ahead advance =>
    rw [ahead, finish]
    split
    next refused => cases advance.symm.trans refused; rfl
    next read => cases advance.symm.trans read
  | read stream after token _ ahead advance current chain _ ih =>
    rw [ahead, finish]
    split
    next refused => cases advance.symm.trans refused
    next read =>
      cases advance.symm.trans read
      by_cases last : token.kind = .endOfInput
      · have nothing : after.ahead = ([], none) := ahead_of_ended (by rw [current, last])
        simp [last, nothing, chain]
      · rw [dif_neg last, ih (by rw [current]; exact last), chain]
        rfl

theorem next_of_ahead (stream : TokenStream) : ∀ token ∈ stream.ahead.1, token.next = none := by
  induction stream using ahead_induction with
  | ended stream isEnded =>
    rw [ahead_of_ended isEnded]
    simp
  | refused stream error _ ahead advance => simp [ahead]
  | read stream after token _ ahead advance _ _ unlinked ih =>
    rw [ahead]
    exact List.forall_mem_cons.mpr ⟨unlinked, ih⟩

/-- The last of the tokens is the end of the source, unless a refusal stops them. -/
theorem last_of_ahead (stream : TokenStream) :
    (stream.current :: stream.ahead.1).getLast?.map Token.kind = some .endOfInput ↔
      stream.ahead.2 = none := by
  induction stream using ahead_induction with
  | ended stream isEnded =>
    rw [ahead_of_ended isEnded]
    simp [isEnded]
  | refused stream error more ahead advance => simp [ahead, more]
  | read stream after token _ ahead advance current _ _ ih =>
    rw [ahead, List.getLast?_cons_cons, ← current]
    exact ih

/-! ### The law of calls -/

/-- A stream whose chain holds the tokens up to a place, each linked to its neighbours, and that
stands at the last of them. -/
structure StandsAt (tokens : List Token) (place : Nat) (stream : TokenStream) : Prop where
  chain : stream.chain.toList = (tokens.take (place + 1)).mapIdx (Chain.linkedAt (place + 1))
  last : stream.chain.last? = some stream.current
  current : tokens[place]? = some stream.current

theorem HasRead.exists_place (here : HasRead tokens error read stream) :
    ∃ place, read.length = place + 1 ∧ StandsAt tokens place stream := by
  obtain ⟨chain, last, current, whole, -⟩ := here
  have nonempty : read ≠ [] := by
    rintro rfl
    cases current
  obtain ⟨place, length⟩ := Nat.exists_eq_succ_of_ne_zero
    (List.length_pos_iff.mpr nonempty).ne'
  refine ⟨place, length, ?_, last, ?_⟩
  · rw [chain, Chain.toList_link, whole, length, List.take_append_of_le_length (by omega),
      List.take_of_length_le (by omega)]
  · rw [whole, List.getElem?_append_left (by omega), ← current, List.getLast?_eq_getElem?, length]
    simp

/-- A stream stands at the end of the source if it stands at the last token and no refusal is to
come. -/
theorem HasRead.ended_at (here : HasRead tokens error read stream) {place : Nat}
    (length : read.length = place + 1) (stands : StandsAt tokens place stream) :
    stream.current.kind = .endOfInput ↔ place + 1 = tokens.length ∧ error = none := by
  have bound : place < tokens.length := (List.getElem?_eq_some_iff.mp stands.current).1
  have last : tokens.length ≤ place + 1 ↔ place + 1 = tokens.length := by omega
  rw [here.ended_iff, length, List.getElem?_eq_none_iff]
  exact and_congr_left' last

/-- A call that is not spent returns the token after the one that the stream stands at, or else the
last answer. -/
theorem HasRead.call_at (here : HasRead tokens error read stream) {place : Nat}
    (length : read.length = place + 1) (call : Call) :
    let later := (stream.call call).2
    if call = .next ∧ stream.exhausted = true then stream.call call = (none, stream)
    else
      match tokens[place + 1]? with
      | some token => (stream.call call).1 = some (.ok token) ∧ StandsAt tokens (place + 1) later
      | none => (stream.call call).1 = some (lastAnswer error stream.current) ∧
          later = { stream with exhausted := later.exhausted } ∧
          (call = .advance → later = stream) := by
  intro later
  rw [← length]
  rcases here.call_cases call with
    ⟨ended, same⟩ | ⟨going, ⟨token, next, answer, further⟩ | ⟨none, last⟩⟩
  · rw [if_pos ended]
    exact same
  · rw [if_neg going]
    obtain ⟨there, length', stands'⟩ := further.exists_place
    have step : there = place + 1 := by simp_all
    have next' : tokens[read.length]? = some token := next
    simp only [next']
    exact ⟨answer, by rw [length, ← step]; exact stands'⟩
  · rw [if_neg going]
    have none' : tokens[read.length]? = Option.none := none
    simp only [none']
    exact last

theorem hasRead_ofSource (source : String) :
    HasRead ((ofSource source).current :: (ofSource source).ahead.1) (ofSource source).ahead.2
      [(ofSource source).current] (ofSource source) :=
  ⟨rfl, rfl, rfl, rfl, rfl⟩

/-- The tokens of a source and the refusal that may stop them are fixed by `advance` alone, and
calls of both kinds in any order go through them. After any calls the chain holds the tokens up to
one of them, each linked to its neighbours, and that one is the current token. A call of `next?`
returns nothing once one has returned the end of the source or a refusal, which happens once at
most. Every other call returns the next token and links it; where there is none it returns the
refusal, or else the end of the source again, and changes nothing but whether `next?` is at its end.
So collecting gives all tokens, then the refusal, and reading to the end gives their chain or the
refusal. -/
theorem answers_in_order (source : String) :
    let start := ofSource source
    let tokens := start.current :: start.ahead.1
    let error := start.ahead.2
    (∀ calls, ∃ place,
      let stream := start.afterCalls calls
      StandsAt tokens place stream ∧
      (stream.current.kind = .endOfInput ↔ place + 1 = tokens.length ∧ error = none) ∧
      ∀ call,
        let later := (stream.call call).2
        if call = .next ∧ (start.history calls).any isFinal = true then
          stream.call call = (none, stream)
        else
          match tokens[place + 1]? with
          | some token => (stream.call call).1 = some (.ok token) ∧ StandsAt tokens (place + 1) later
          | none => (stream.call call).1 = some (lastAnswer error stream.current) ∧
              later = { stream with exhausted := later.exhausted } ∧
              (call = .advance → later = stream)) ∧
    (∀ calls, (start.history calls).countP isFinal ≤ 1) ∧
    (∀ token ∈ tokens, token.next = none) ∧
    (tokens.getLast?.map Token.kind = some .endOfInput ↔ error = none) ∧
    start.toList = start.ahead.1.map Except.ok ++ error.toList.map Except.error ∧
    (∀ count, (start.history (List.replicate count .next)).map Prod.snd =
      (List.range count).map fun place => start.toList[place]?) ∧
    Chain.ofSource source =
      match error with
      | none => .ok (Chain.ofList (tokens.mapIdx (Chain.linkedAt tokens.length)))
      | some error => .error error := by
  intro start tokens error
  have more : start.current.kind ≠ .endOfInput := by simp [start, ofSource, Token.unlinked]
  refine ⟨?_, countP_isFinal_le_one rfl, ?_, start.last_of_ahead, toList_eq_ahead rfl more,
    start.history_replicate_next, ?_⟩
  · intro calls
    obtain ⟨read, here⟩ := hasRead_afterCalls (hasRead_ofSource source) calls
    obtain ⟨place, length, stands⟩ := here.exists_place
    refine ⟨place, stands, here.ended_at length stands, ?_⟩
    -- The flag of the stream is what the answers so far say.
    rw [← exhausted_afterCalls rfl calls]
    exact here.call_at length
  · exact List.forall_mem_cons.mpr ⟨rfl, start.next_of_ahead⟩
  · rw [Chain.ofSource, finish_eq_ahead more]
    have linked : start.ahead.1.foldl Chain.append start.chain = Chain.link tokens := rfl
    have whole : Chain.link tokens =
        Chain.ofList (tokens.mapIdx (Chain.linkedAt tokens.length)) := by
      rw [← Chain.toList_link]
      rfl
    rw [← whole, ← linked]

end TokenStream

end LinearSystem
