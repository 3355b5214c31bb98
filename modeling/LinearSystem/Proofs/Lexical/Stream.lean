import LinearSystem.Token.Stream
/-!
Reading a source to its end, without the chain.

`Token.readAll` reads the tokens of a text one after the other. A stream that is read to its end
appends exactly these to its chain (`TokenStream.finish_eq`), and the chain keeps of each all but
its links (`Chain.map_content_link`).
-/
namespace LinearSystem

namespace Token

/-- Reads every token of a text up to its end, or up to the first refusal. -/
def readAll (cursor : Cursor) (text : List Char) : List Token × Option LexicalError :=
  match _success : read cursor text with
  | .error error => ([], some error)
  | .ok (token, after, rest) =>
    if _last : token.kind = .endOfInput then ([token], none)
    else
      let (tokens, error) := readAll after rest
      (token :: tokens, error)
termination_by text.length
decreasing_by exact TokenStream.read_length_lt _success _last

theorem readAll_eq (cursor : Cursor) (text : List Char) :
    readAll cursor text =
      match read cursor text with
      | .error error => ([], some error)
      | .ok (token, after, rest) =>
        if token.kind = .endOfInput then ([token], none)
        else (token :: (readAll after rest).1, (readAll after rest).2) := by
  rw [readAll]
  split
  next refused => rw [refused]
  next success =>
    rw [success]
    dsimp only
    split <;> rfl

def content (token : Token) : Token := { token with index := 0, prev := none, next := none }

@[simp] theorem content_unlinked (kind : Kind) (text : List Char) (first after : Cursor) :
    (unlinked kind text first after).content = unlinked kind text first after := rfl

theorem eq_of_content {token token' : Token} (same : token.content = token'.content) :
    token.kind = token'.kind ∧ token.value = token'.value ∧ token.location = token'.location := by
  simp only [content, mk.injEq] at same
  exact ⟨same.1, same.2.1, same.2.2.2.2.1⟩

end Token

namespace Chain

/-- The chain of tokens that are linked in order. -/
def link (tokens : List Token) : Chain := tokens.foldl append empty

theorem map_content_append (chain : Chain) (token : Token) :
    (chain.append token).toList.map Token.content =
      chain.toList.map Token.content ++ [token.content] := by
  -- Appending sets a link of the last token, which is no part of its content.
  have linked (place : Nat) (next : Option Nat) :
      (chain.tokens.toList.modify place fun last => { last with next := next }).map Token.content =
        chain.tokens.toList.map Token.content := by
    apply List.ext_getElem?
    intro other
    simp only [List.getElem?_map, List.getElem?_modify]
    split <;> cases chain.tokens.toList[other]? <;> rfl
  simp [append, toList, linked, Token.content]

theorem map_content_foldl (tokens : List Token) (chain : Chain) :
    (tokens.foldl append chain).toList.map Token.content =
      chain.toList.map Token.content ++ tokens.map Token.content := by
  induction tokens generalizing chain with
  | nil => simp
  | cons token rest ih => simp [ih, map_content_append]

theorem map_content_link (tokens : List Token) :
    (link tokens).toList.map Token.content = tokens.map Token.content :=
  map_content_foldl tokens empty

theorem map_link {α : Type} {field : Token → α}
    (kept : ∀ token : Token, field token.content = field token) (tokens : List Token) :
    (link tokens).toList.map field = tokens.map field := by
  have contents := congrArg (List.map field) (map_content_link tokens)
  simpa [List.map_map, Function.comp_def, kept] using contents

end Chain

namespace TokenStream

theorem more_ofSource (source : String) : (ofSource source).current.kind ≠ .endOfInput := by
  simp [ofSource, Token.unlinked]

theorem advance_eq (stream : TokenStream) (more : stream.current.kind ≠ .endOfInput) :
    stream.advance =
      match Token.read stream.cursor stream.rest with
      | .error error => (.error error, stream)
      | .ok (token, cursor, rest) =>
        let index := stream.chain.size
        let linked := { token with index := index, prev := Chain.before? index, next := none }
        (.ok linked,
          { stream with chain := stream.chain.append token, current := linked, cursor, rest }) := by
  simp only [advance, more, if_false]
  rfl

/-- Reading a stream to its end appends the tokens of its text. -/
theorem finish_eq (stream : TokenStream) (more : stream.current.kind ≠ .endOfInput) :
    stream.finish =
      match Token.readAll stream.cursor stream.rest with
      | (tokens, none) => .ok (tokens.foldl Chain.append stream.chain)
      | (_, some error) => .error error := by
  -- The stream may be anywhere in its text; the tokens before are in its chain already.
  generalize place : stream.cursor = cursor
  generalize left : stream.rest = text
  fun_induction Token.readAll cursor text generalizing stream with
  | case1 cursor text error refused =>
    have advances := stream.advance_eq more
    simp only [place, left, refused] at advances
    rw [finish]
    split
    next advanced =>
      cases advances.symm.trans advanced
      rfl
    next advanced => cases advances.symm.trans advanced
  | case2 cursor text token after rest read last =>
    have advances := stream.advance_eq more
    simp only [place, left, read] at advances
    rw [finish]
    split
    next advanced => cases advances.symm.trans advanced
    next advanced =>
      cases advances.symm.trans advanced
      simp [last]
  | case3 cursor text token after rest read notLast tokens error all ih =>
    have advances := stream.advance_eq more
    simp only [place, left, read] at advances
    rw [finish]
    split
    next advanced => cases advances.symm.trans advanced
    next advanced =>
      cases advances.symm.trans advanced
      simp only [notLast, dite_false]
      rw [ih _ notLast rfl rfl, all]
      cases error <;> rfl

end TokenStream

/-- The chain of a source holds the token for its start and the tokens of its text. -/
theorem Chain.ofSource_eq (source : String) :
    ofSource source =
      match Token.readAll .start source.toList with
      | (tokens, none) => .ok (link (.unlinked .startOfInput [] .start .start :: tokens))
      | (_, some error) => .error error := by
  rw [ofSource, TokenStream.finish_eq _ (TokenStream.more_ofSource source)]
  rfl

end LinearSystem
