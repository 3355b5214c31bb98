import LinearSystem.Equation.Builder
import LinearSystem.Proofs.Lexical.Layout
import LinearSystem.Proofs.Lexical.Stream
/-!
The sources that can be read.

A `Reading` cuts a source into lexemes and the layout around them, so that no lexeme runs into what
stands directly after it. A source is read exactly if it has a reading; it has at most one; and its
tokens are those of the reading, each with the bytes it stands at (`Chain.ofSource_iff`).
-/
namespace LinearSystem

open Text

/-! ### Lexemes and layout -/

/-- Lexemes, each with the layout that follows it. -/
abbrev Spaced := List (Lexeme × List Char)

namespace Spaced

def text : Spaced → List Char
  | [] => []
  | (lexeme, gap) :: rest => lexeme.text ++ (gap ++ text rest)

/-- Every lexeme is spelled as its kind asks for, what follows it is layout, and where that is
empty the lexeme does not run into the next. -/
def WellFormed : Spaced → Prop
  | [] => True
  | (lexeme, gap) :: rest =>
    lexeme.IsSpelled ∧ (∀ c ∈ gap, isLayout c = true) ∧
      (gap = [] → Halts lexeme.runsInto (text rest)) ∧ WellFormed rest

/-- The tokens of lexemes after a place and layout. -/
def tokens (cursor : Cursor) (gap : List Char) : Spaced → List Token
  | [] => [.unlinked .endOfInput [] (cursor.over gap) (cursor.over gap)]
  | (lexeme, next) :: rest =>
    let first := cursor.over gap
    let after := first.past lexeme.text
    .unlinked lexeme.kind lexeme.text first after :: tokens after next rest

theorem WellFormed.halts {body : Spaced} (wellFormed : body.WellFormed) :
    Halts isLayout body.text := by
  cases body with
  | nil => rfl
  | cons spaced rest =>
    obtain ⟨first, others, same, noLayout⟩ := wellFormed.1.exists_cons
    simp [text, same, noLayout]

/-- A lexeme runs neither into layout nor, without layout, into the next. -/
theorem WellFormed.halts_runsInto {lexeme : Lexeme} {gap : List Char} {rest : Spaced}
    (wellFormed : WellFormed ((lexeme, gap) :: rest)) :
    Halts lexeme.runsInto (gap ++ text rest) := by
  obtain ⟨-, layout, free, -⟩ := wellFormed
  cases gap with
  | nil => exact free rfl
  | cons c gap => simp [lexeme.runsInto_of_isLayout (layout c (by simp))]

end Spaced

namespace Token

/-- Before a lexeme that does not run into what follows, the next token is that lexeme's. -/
theorem read_lexeme (cursor : Cursor) {gap after : List Char} {lexeme : Lexeme}
    (layout : ∀ c ∈ gap, isLayout c = true) (spelled : lexeme.IsSpelled)
    (halts : Halts lexeme.runsInto after) :
    read cursor (gap ++ (lexeme.text ++ after)) =
      .ok (.unlinked lexeme.kind lexeme.text (cursor.over gap) ((cursor.over gap).past lexeme.text),
        (cursor.over gap).past lexeme.text, after) := by
  obtain ⟨first, rest, same, noLayout⟩ := spelled.exists_cons
  have lexemeRead : Lexeme.read first (rest ++ after) = .ok (lexeme, after) :=
    Lexeme.read_complete spelled (by simp [same]) halts
  have skipped : skipLayout cursor (gap ++ (lexeme.text ++ after)) =
      (cursor.over gap, first :: (rest ++ after)) := by
    rw [skipLayout_append cursor layout (by simp [same, noLayout]), same, List.cons_append]
  simp [read, skipped, lexemeRead]

theorem read_end (cursor : Cursor) {gap : List Char} (layout : ∀ c ∈ gap, isLayout c = true) :
    read cursor gap =
      .ok (.unlinked .endOfInput [] (cursor.over gap) (cursor.over gap), cursor.over gap, []) := by
  have skipped := skipLayout_append cursor layout (halts_nil isLayout)
  rw [List.append_nil] at skipped
  simp [read, skipped]

/-- A token that is read is that of a lexeme after layout, or layout is all that is left. -/
theorem read_eq_ok {cursor after : Cursor} {text rest : List Char} {token : Token}
    (success : read cursor text = .ok (token, after, rest)) :
    (token.kind = .endOfInput ∧ ∀ c ∈ text, isLayout c = true) ∨
      ∃ gap, ∃ lexeme : Lexeme, text = gap ++ (lexeme.text ++ rest) ∧
        (∀ c ∈ gap, isLayout c = true) ∧ lexeme.IsSpelled ∧ Halts lexeme.runsInto rest ∧
        token.kind = lexeme.kind ∧ token.value = .ofList lexeme.text := by
  obtain ⟨whole, layout, -⟩ := span_iff.mp
    (⟨rfl, rfl⟩ : text.takeWhile isLayout = _ ∧ text.dropWhile isLayout = _)
  simp only [read, skipLayout_eq] at success
  split at success
  next nothing =>
    cases success
    left
    rw [nothing, List.append_nil] at whole
    rw [whole]
    exact ⟨rfl, layout⟩
  next first others left =>
    split at success
    · cases success
    next lexeme after lexemeRead =>
      cases success
      obtain ⟨same, spelled, halts⟩ := Lexeme.read_eq_ok.mp lexemeRead
      rw [left, same] at whole
      exact .inr ⟨_, lexeme, whole, layout, spelled, halts, rfl, rfl⟩

theorem readAll_complete (cursor : Cursor) {gap : List Char} {body : Spaced}
    (layout : ∀ c ∈ gap, isLayout c = true) (wellFormed : body.WellFormed) :
    readAll cursor (gap ++ body.text) = (body.tokens cursor gap, none) := by
  induction body generalizing cursor gap with
  | nil =>
    have reads := read_end cursor layout
    rw [Spaced.text, List.append_nil, readAll]
    split
    next refused => cases reads.symm.trans refused
    next read =>
      cases reads.symm.trans read
      rfl
  | cons spaced rest ih =>
    obtain ⟨lexeme, next⟩ := spaced
    have reads := read_lexeme cursor layout wellFormed.1 wellFormed.halts_runsInto
    rw [Spaced.text, readAll]
    split
    next refused => cases reads.symm.trans refused
    next read =>
      cases reads.symm.trans read
      have later := ih ((cursor.over gap).past lexeme.text) wellFormed.2.1 wellFormed.2.2.2
      have more : (unlinked lexeme.kind lexeme.text (cursor.over gap)
          ((cursor.over gap).past lexeme.text)).kind ≠ .endOfInput := wellFormed.1.kind_ne_end
      simp only [more, dite_false, later]
      rfl

theorem readAll_sound {cursor : Cursor} {text : List Char} {tokens : List Token}
    (success : readAll cursor text = (tokens, none)) :
    ∃ gap, ∃ body : Spaced, text = gap ++ body.text ∧ (∀ c ∈ gap, isLayout c = true) ∧
      body.WellFormed := by
  -- What is read last is layout and the end; every other token is a lexeme after layout.
  fun_induction readAll cursor text generalizing tokens with
  | case1 => cases success
  | case2 cursor text token after rest read last =>
    rcases read_eq_ok read with ⟨-, layout⟩ | ⟨gap, lexeme, -, -, spelled, -, same, -⟩
    · exact ⟨text, [], by simp [Spaced.text], layout, trivial⟩
    · exact absurd (same.symm.trans last) spelled.kind_ne_end
  | case3 cursor text token after rest read notLast tokens error all ih =>
    cases success
    rcases read_eq_ok read with ⟨last, -⟩ | ⟨gap, lexeme, rfl, layout, spelled, halts, -⟩
    · exact absurd last notLast
    · obtain ⟨next, body, rfl, nextLayout, wellFormed⟩ := ih all
      refine ⟨gap, (lexeme, next) :: body, rfl, layout, spelled, nextLayout, ?_, wellFormed⟩
      rintro rfl
      exact halts

end Token

/-! ### Uniqueness -/

/-- Lexemes and their layout are found in a text in one way. -/
theorem Spaced.text_injective {first second : Spaced} (formed : first.WellFormed)
    (formed' : second.WellFormed) (same : first.text = second.text) : first = second := by
  induction first generalizing second with
  | nil =>
    cases second with
    | nil => rfl
    | cons spaced' rest' =>
      obtain ⟨c, others, starts, -⟩ := formed'.1.exists_cons
      simp [text, starts] at same
  | cons spaced rest ih =>
    obtain ⟨c, others, starts, -⟩ := formed.1.exists_cons
    cases second with
    | nil => simp [text, starts] at same
    | cons spaced' rest' =>
      obtain ⟨lexeme, gap⟩ := spaced
      obtain ⟨lexeme', gap'⟩ := spaced'
      simp only [text] at same starts
      -- Both are what is read from the same text.
      have read : Lexeme.read c (others ++ (gap ++ text rest)) = .ok (lexeme, gap ++ text rest) :=
        Lexeme.read_complete formed.1 (by simp [starts]) formed.halts_runsInto
      have read' : Lexeme.read c (others ++ (gap ++ text rest)) =
          .ok (lexeme', gap' ++ text rest') :=
        Lexeme.read_complete formed'.1 (by simp [← same, starts]) formed'.halts_runsInto
      obtain ⟨rfl, left⟩ := Prod.mk.inj (Except.ok.inj (read.symm.trans read'))
      obtain ⟨-, layout, -, formed⟩ := formed
      obtain ⟨-, layout', -, formed'⟩ := formed'
      obtain ⟨rfl, rests⟩ := layout_unique layout layout' formed.halts formed'.halts left
      rw [ih formed formed' rests]

/-! ### Places -/

/-- What a token is and where: its kind, its text, and the bytes that it starts and ends at. -/
def Token.span (token : Token) : Kind × String × Nat × Nat :=
  (token.kind, token.value, token.start, token.stop)

/-- What lexemes are and where, after so many bytes. -/
def Spaced.spans (offset : Nat) : Spaced → List (Kind × String × Nat × Nat)
  | [] => []
  | (lexeme, gap) :: rest =>
    let stop := offset + utf8Length lexeme.text
    (lexeme.kind, String.ofList lexeme.text, offset, stop) :: spans (stop + utf8Length gap) rest

theorem Spaced.map_span_tokens (cursor : Cursor) {gap : List Char} {body : Spaced}
    (layout : ∀ c ∈ gap, isLayout c = true) (formed : body.WellFormed) :
    let stop := cursor.offset + utf8Length (gap ++ body.text)
    (body.tokens cursor gap).map Token.span =
      body.spans (cursor.offset + utf8Length gap) ++ [(.endOfInput, "", stop, stop)] := by
  induction body generalizing cursor gap with
  | nil => simp [tokens, text, spans, Token.span, Token.unlinked, cursor.offset_over layout]
  | cons spaced rest ih =>
    obtain ⟨lexeme, next⟩ := spaced
    have later := ih ((cursor.over gap).past lexeme.text) formed.2.1 formed.2.2.2
    have offset : ((cursor.over gap).past lexeme.text).offset =
        cursor.offset + utf8Length gap + utf8Length lexeme.text := by
      simp [Cursor.past, cursor.offset_over layout]
    rw [offset] at later
    dsimp only at later
    -- The next token starts where this one and its layout stop.
    rw [tokens, List.map_cons, later]
    simp [spans, text, Token.span, Token.unlinked, offset, cursor.offset_over layout,
      utf8Length_append, Nat.add_assoc]

theorem utf8Length_toList (source : String) : utf8Length source.toList = source.utf8ByteSize := by
  have general (text : List Char) : utf8Length text = (String.ofList text).utf8ByteSize := by
    induction text with
    | nil => rfl
    | cons c rest ih =>
      rw [utf8Length_cons, ih, String.ofList_cons, String.utf8ByteSize_append,
        String.utf8ByteSize_singleton]
  rw [general, String.ofList_toList]

/-! ### Readings -/

/-- A way to cut a source into layout and lexemes. -/
@[ext] structure Reading (source : String) where
  lead : List Char
  body : Spaced
  layout : ∀ c ∈ lead, isLayout c = true
  formed : body.WellFormed
  whole : source.toList = lead ++ body.text

namespace Reading

/-- What the tokens of a source are and where, the two ends included. -/
def spans {source : String} (reading : Reading source) : List (Kind × String × Nat × Nat) :=
  (.startOfInput, "", 0, 0) :: (reading.body.spans (utf8Length reading.lead) ++
    [(.endOfInput, "", source.utf8ByteSize, source.utf8ByteSize)])

theorem unique {source : String} (first second : Reading source) : first = second := by
  obtain ⟨lead, body⟩ := layout_unique first.layout second.layout first.formed.halts
    second.formed.halts (first.whole.symm.trans second.whole)
  exact Reading.ext lead (Spaced.text_injective first.formed second.formed body)

theorem readAll_eq {source : String} (reading : Reading source) :
    Token.readAll .start source.toList = (reading.body.tokens .start reading.lead, none) := by
  rw [reading.whole]
  exact Token.readAll_complete .start reading.layout reading.formed

end Reading

namespace Chain

theorem ofSource_eq_ok {source : String} {chain : Chain} :
    ofSource source = .ok chain ↔ ∃ reading : Reading source,
      chain = link (.unlinked .startOfInput [] .start .start ::
        reading.body.tokens .start reading.lead) := by
  rw [ofSource_eq]
  constructor
  · intro read
    cases all : Token.readAll .start source.toList with
    | mk tokens error =>
      cases error with
      | some error =>
        rw [all] at read
        cases read
      | none =>
        obtain ⟨lead, body, whole, layout, formed⟩ := Token.readAll_sound all
        -- The tokens that were read are those of the reading, since it is read completely.
        let reading : Reading source := ⟨lead, body, layout, formed, whole⟩
        refine ⟨reading, ?_⟩
        rw [reading.readAll_eq] at read
        exact (Except.ok.inj read).symm
  · rintro ⟨reading, rfl⟩
    rw [reading.readAll_eq]

/-- A source is read exactly if it can be cut into lexemes and layout; it can be cut in one way
only, and its tokens are these lexemes, each at its bytes, between the two ends. -/
theorem ofSource_iff (source : String) :
    ((∃ chain, ofSource source = .ok chain) ↔ Nonempty (Reading source)) ∧
    (∀ first second : Reading source, first = second) ∧
    ∀ reading : Reading source, ∃ chain, ofSource source = .ok chain ∧
      chain.toList.map Token.span = reading.spans := by
  refine ⟨⟨?_, ?_⟩, Reading.unique, ?_⟩
  · rintro ⟨chain, read⟩
    obtain ⟨reading, -⟩ := ofSource_eq_ok.mp read
    exact ⟨reading⟩
  · rintro ⟨reading⟩
    exact ⟨_, ofSource_eq_ok.mpr ⟨reading, rfl⟩⟩
  · intro reading
    refine ⟨_, ofSource_eq_ok.mpr ⟨reading, rfl⟩, ?_⟩
    have spans := Spaced.map_span_tokens .start reading.layout reading.formed
    rw [← reading.whole, utf8Length_toList] at spans
    simp only [Cursor.start, Nat.zero_add] at spans
    rw [map_link (fun _ => rfl), List.map_cons, Cursor.start, spans]
    rfl

/-! ### Texts of tokens -/

/-- There is a result where something is known of it. -/
theorem exists_ok_of_map {ε α β : Type} {known : α → β} {outcome : Except ε α} {value : β}
    (mapped : outcome.map known = .ok value) :
    ∃ result, outcome = .ok result ∧ known result = value := by
  cases outcome with
  | error refusal => cases mapped
  | ok result => exact ⟨result, rfl, Except.ok.inj mapped⟩

theorem items_link (tokens : List Token) :
    (link tokens).items = tokens.map fun token => (token.kind, token.value) :=
  map_link (fun _ => rfl) tokens

end Chain

theorem Spaced.spells_tokens {cursor : Cursor} {gap : List Char} {body : Spaced}
    (formed : body.WellFormed) :
    ∀ token ∈ body.tokens cursor gap, token.kind = .endOfInput ∨
      Lexeme.Spells token.kind token.value.toList := by
  induction body generalizing cursor gap with
  | nil => simp [tokens, Token.unlinked]
  | cons spaced rest ih =>
    intro token member
    rcases List.mem_cons.mp member with rfl | member
    · right
      simp only [Token.unlinked, String.toList_ofList]
      exact formed.1
    · exact ih formed.2.2.2 token member

/-- The tokens of a chain that was read are spelled as their kinds ask for, but for its ends. -/
theorem Chain.spells_items {source : String} {chain : Chain} (read : ofSource source = .ok chain) :
    ∀ item ∈ chain.items, item.1 = .startOfInput ∨ item.1 = .endOfInput ∨
      Lexeme.Spells item.1 item.2.toList := by
  obtain ⟨reading, rfl⟩ := ofSource_eq_ok.mp read
  intro item member
  rw [items_link, List.map_cons] at member
  rcases List.mem_cons.mp member with rfl | member
  · exact .inl rfl
  · obtain ⟨token, among, rfl⟩ := List.mem_map.mp member
    exact .inr (Spaced.spells_tokens reading.formed token among)

end LinearSystem
