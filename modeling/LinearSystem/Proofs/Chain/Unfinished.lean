import LinearSystem.Proofs.Grammar.Acceptance
import LinearSystem.Proofs.Lexical.Calls
/-!
Chains that are checked before they are finished.

While a source is read its chain is unbroken but ends in a token that is not the end of the source.
Such a chain is refused: for what the rules say of the tokens before the last, if they refuse any of
them, and otherwise because the chain breaks off at the last (`Chain.Unbroken.check_unfinished`).
The tokens before the last do not change any more while the chain grows, so what the rules say of
them is what they say for ever (`TokenStream.unfinished_refused`).
-/
namespace LinearSystem

open Grammar

namespace Chain

/-! ### Chains that break off -/

/-- What the rules have refused they refuse whatever comes after it. -/
theorem ruled_of_prefix {front longer : List Token} {error : CheckError} (begins : front <+: longer)
    (refused : ruled front = .error error) : ruled longer = .error error := by
  obtain ⟨more, rfl⟩ := begins
  cases front with
  | nil => cases refused
  | cons first rest =>
    have walked : walk .nothing first rest = .error error := refused
    have whole := walk_append .nothing first rest more
    rw [walked] at whole
    exact whole

theorem blamed_of_ruled {front : List Token} {error : CheckError}
    (refused : ruled front = .error error) :
    ∃ violation, ∃ blamed ∈ front, error = .grammar violation blamed := by
  cases front with
  | nil => cases refused
  | cons first rest => exact blamed_of_walk refused

theorem Unbroken.check_of_ruled {chain : Chain} {error : CheckError} (unbroken : chain.Unbroken)
    (refused : ruled chain.toList.dropLast = .error error) : chain.check = .error error := by
  rcases List.eq_nil_or_concat' chain.toList with empty | ⟨front, last, listed⟩
  · rw [empty] at refused
    cases refused
  · rw [listed, List.dropLast_concat] at refused
    rw [unbroken.check_eq listed, refused]
    rfl

/-- A chain that breaks off is refused at its last token, unless the rules refuse a token before. -/
theorem Unbroken.check_unfinished {chain : Chain} {last : Token} (unbroken : chain.Unbroken)
    (ends : chain.last? = some last) (more : last.kind ≠ .endOfInput) :
    chain.check = ruled chain.toList.dropLast >>= fun _ => .error (.integrity last.location) := by
  have listed : chain.toList = chain.toList.dropLast ++ [last] := by
    rw [List.dropLast_append_getLast?]
    simpa [toList, last?] using ends
  have stored := get?_of_listed listed
  have size := size_of_listed listed
  rw [unbroken.check_eq listed]
  congr 1
  funext seen
  have index := (unbroken _ last stored).index
  -- Nothing follows the last token, and it is not the end of the source either.
  have loose : chain.holdsTogetherAt last = false := by
    rw [Bool.eq_false_iff, ne_eq, unbroken.holdsTogetherAt_iff stored]
    rintro (further | ended)
    · simp only [List.length_nil] at size
      omega
    · exact more ended
  rw [checkFrom, if_neg (by simpa using index), checkToken, loose]
  rfl

/-! ### Chains that grow -/

/-- The tokens before the last lead to the token after them, however long the chain is. -/
theorem dropLast_link (tokens : List Token) :
    (link tokens).toList.dropLast =
      tokens.dropLast.mapIdx fun place => linkedAt (place + 2) place := by
  rw [toList_link]
  apply List.ext_getElem?
  intro place
  rw [List.getElem?_dropLast, List.getElem?_mapIdx, List.getElem?_mapIdx, List.getElem?_dropLast,
    List.length_mapIdx]
  split
  next within =>
    -- Before the last place there is a next token, whatever the length.
    have more : place + 1 < tokens.length := by omega
    have same : linkedAt tokens.length place = linkedAt (place + 2) place := by
      funext token
      simp [linkedAt, more]
    rw [same]
  · rfl

theorem prefix_dropLast_link (read more : List Token) :
    (link read).toList.dropLast <+: (link (read ++ more)).toList.dropLast := by
  rw [dropLast_link, dropLast_link]
  have front : read.dropLast <+: (read ++ more).dropLast := by
    cases more with
    | nil => simp
    | cons next rest =>
      rw [List.dropLast_append_of_ne_nil (List.cons_ne_nil next rest)]
      exact (List.dropLast_prefix read).trans (List.prefix_append ..)
  obtain ⟨others, whole⟩ := front
  rw [← whole, List.mapIdx_append]
  exact List.prefix_append ..

end Chain

namespace TokenStream

/-! ### Streams -/

theorem kind_ne_start_of_advance {stream after : TokenStream} {token : Token}
    (more : stream.current.kind ≠ .endOfInput) (advanced : stream.advance = (.ok token, after)) :
    token.kind ≠ .startOfInput := by
  rw [stream.advance_eq more] at advanced
  split at advanced
  · cases advanced
  next plain cursor rest read =>
    cases advanced
    dsimp only
    rcases Token.read_eq_ok read with ⟨ended, -⟩ | ⟨gap, lexeme, -, -, spelled, -, same, -⟩
    · rw [ended]
      decide
    · rw [same]
      exact spelled.kind_ne_start

/-- None of the tokens to come starts the source, and none but the last ends it. -/
theorem kinds_of_ahead (stream : TokenStream) (place : Nat) (token : Token)
    (found : stream.ahead.1[place]? = some token) :
    token.kind ≠ .startOfInput ∧
      (token.kind = .endOfInput → place + 1 = stream.ahead.1.length) := by
  induction stream using ahead_induction generalizing place with
  | ended stream isEnded =>
    rw [ahead_of_ended isEnded] at found
    simp at found
  | refused stream error more ahead advance =>
    rw [ahead] at found
    simp at found
  | read stream after next more ahead advance current chain unlinked ih =>
    rw [ahead] at found ⊢
    cases place with
    | zero =>
      obtain rfl : next = token := by simpa using found
      -- Once the end of the source has been read, nothing is ahead.
      refine ⟨kind_ne_start_of_advance more advance, fun last => ?_⟩
      have nothing : after.ahead = ([], none) := ahead_of_ended (by rw [current, last])
      simp [nothing]
    | succ place =>
      obtain ⟨noStart, ended⟩ := ih place (by simpa using found)
      exact ⟨noStart, fun last => by simp [ended last]⟩

/-- While a source is read, its chain is unbroken. -/
theorem HasRead.unbroken {source : String} {error : Option LexicalError} {read : List Token}
    {stream : TokenStream}
    (here : HasRead ((ofSource source).current :: (ofSource source).ahead.1) error read stream) :
    stream.chain.Unbroken := by
  rw [here.chain]
  apply Chain.unbroken_link
  intro place token found
  -- The tokens that were read are the first of all tokens of the source.
  have bound : place < read.length := (List.getElem?_eq_some_iff.mp found).1
  have whole := here.whole
  have count := congrArg List.length whole
  have among : ((ofSource source).current :: (ofSource source).ahead.1)[place]? = some token := by
    rw [whole, List.getElem?_append_left bound, found]
  simp only [List.length_cons, List.length_append] at count
  cases place with
  | zero =>
    obtain rfl : (ofSource source).current = token := by simpa using among
    simp [ofSource, Token.unlinked]
  | succ place =>
    obtain ⟨noStart, ended⟩ := kinds_of_ahead _ place token (by simpa using among)
    refine ⟨by simp [noStart], fun last => ?_⟩
    have := ended last
    omega

/-- The chain of a source that can be read to its end goes on from every chain on the way. -/
theorem HasRead.prefix_ofSource {source : String} {error : Option LexicalError} {read : List Token}
    {stream : TokenStream} {chain : Chain}
    (here : HasRead ((ofSource source).current :: (ofSource source).ahead.1) error read stream)
    (finished : Chain.ofSource source = .ok chain) :
    stream.chain.toList.dropLast <+: chain.toList.dropLast := by
  rw [Chain.ofSource, finish_eq_ahead (more_ofSource source)] at finished
  split at finished
  · cases finished
    have whole : (ofSource source).ahead.1.foldl Chain.append (ofSource source).chain =
        Chain.link (read ++ stream.ahead.1) := by
      rw [← here.whole]
      rfl
    rw [whole, here.chain]
    exact Chain.prefix_dropLast_link read stream.ahead.1
  · cases finished

/-- While the end of a source has not been read, its chain is refused. If the rules refuse one of
the tokens before the current one, then this is what the chain is refused for, and also every chain
that further calls come to, and the finished one. Otherwise the chain breaks off at the current
token. -/
theorem unfinished_refused (source : String) (calls : List Call) :
    let stream := (ofSource source).afterCalls calls
    stream.current.kind ≠ .endOfInput →
    stream.chain.check ≠ .ok () ∧
    match Chain.ruled stream.chain.toList.dropLast with
    | .ok _ => stream.chain.check = .error (.integrity stream.current.location)
    | .error error =>
      (∃ violation, ∃ blamed ∈ stream.chain.toList.dropLast, error = .grammar violation blamed) ∧
      stream.chain.check = .error error ∧
      (∀ further, (stream.afterCalls further).chain.check = .error error) ∧
      ∀ chain, Chain.ofSource source = .ok chain → chain.check = .error error := by
  intro stream more
  obtain ⟨read, here⟩ := hasRead_afterCalls (hasRead_ofSource source) calls
  have checked := here.unbroken.check_unfinished here.last more
  cases ruled : Chain.ruled stream.chain.toList.dropLast with
  | ok seen =>
    have broken : stream.chain.check = .error (.integrity stream.current.location) := by
      rw [checked, ruled]
      rfl
    exact ⟨by simp [broken], broken⟩
  | error error =>
    have refused : stream.chain.check = .error error := here.unbroken.check_of_ruled ruled
    refine ⟨by simp [refused], Chain.blamed_of_ruled ruled, refused, ?_, ?_⟩
    · intro further
      obtain ⟨later, there⟩ := hasRead_afterCalls here further
      apply there.unbroken.check_of_ruled
      refine Chain.ruled_of_prefix ?_ ruled
      rw [here.chain, there.chain]
      exact Chain.prefix_dropLast_link _ later
    · intro chain finished
      apply (Chain.integral_of_ofSource finished).unbroken.check_of_ruled
      exact Chain.ruled_of_prefix (here.prefix_ofSource finished) ruled

/-- Three calls into `x y = 1`: the second variable has been read and is what the chain is refused
for, then and at the end. -/
theorem unfinished_after_second_variable :
    let stream := (ofSource "x y = 1").afterCalls [.advance, .next, .advance]
    let repeated : Token := ⟨.name, "y", 2, 3, ⟨1, 3⟩, 2, some 1, some 3⟩
    stream.current.kind ≠ .endOfInput ∧
    stream.chain.check = .error (.grammar .variableRepeated repeated) ∧
    ∀ chain, Chain.ofSource "x y = 1" = .ok chain →
      chain.check = .error (.grammar .variableRepeated repeated) := by
  intro stream repeated
  have more : stream.current.kind ≠ .endOfInput := by decide +kernel
  have ruled : Chain.ruled stream.chain.toList.dropLast =
      .error (.grammar .variableRepeated repeated) := by decide +kernel
  have refused := (unfinished_refused "x y = 1" [.advance, .next, .advance] more).2
  rw [ruled] at refused
  exact ⟨more, refused.2.1, refused.2.2.2⟩

end TokenStream

end LinearSystem
