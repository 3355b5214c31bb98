import LinearSystem.Proofs.Chain.Walk
import LinearSystem.Proofs.Lexical.Reading
import Mathlib.Data.List.Induction
/-!
Chains that are linked by appending.

Appending sets a link of a token that is stored already. Still a chain that only grows by appending
holds each token with the links that its place asks for (`toList_link`), so it is integral as soon
as the ends of the source stand at its ends (`integral_link`), as they do in every chain that is
read from a source (`integral_of_ofSource`).
-/
namespace LinearSystem

namespace Chain

/-- A token with the links of a place in a chain of so many tokens. -/
def linkedAt (size place : Nat) (token : Token) : Token :=
  { token with
    index := place
    prev := before? place
    next := if place + 1 < size then some (place + 1) else none }

theorem placedAt_linkedAt {size place : Nat} {token : Token}
    (starts : token.kind = .startOfInput ↔ place = 0)
    (ends : token.kind = .endOfInput ↔ place + 1 = size) :
    PlacedAt size place (linkedAt size place token) :=
  ⟨rfl, rfl, rfl, starts, ends⟩

theorem link_append_singleton (front : List Token) (token : Token) :
    link (front ++ [token]) = (link front).append token := by
  simp [link]

theorem toList_append (chain : Chain) (token : Token) :
    (chain.append token).toList =
      chain.toList.modify (chain.size - 1) (fun last => { last with next := some chain.size }) ++
        [linkedAt (chain.size + 1) chain.size token] := by
  simp [append, toList, linkedAt]

/-- One more token links the token before it, and leaves the links of all others. -/
theorem modify_linked (front : List Token) :
    (front.mapIdx (linkedAt front.length)).modify (front.length - 1)
        (fun last => { last with next := some front.length }) =
      front.mapIdx (linkedAt (front.length + 1)) := by
  apply List.ext_getElem?
  intro place
  rw [List.getElem?_modify, List.getElem?_mapIdx, List.getElem?_mapIdx]
  cases stored : front[place]? with
  | none => simp
  | some token =>
    obtain ⟨bound, -⟩ := List.getElem?_eq_some_iff.mp stored
    by_cases last : place + 1 = front.length
    · have here : front.length - 1 = place := by omega
      simp [linkedAt, here, last]
    · have elsewhere : front.length - 1 ≠ place := by omega
      have more : place + 1 < front.length := by omega
      have still : place + 1 < front.length + 1 := by omega
      simp [linkedAt, elsewhere, more, still]

/-- Linked tokens stand in their order, each with the links of its place. -/
theorem toList_link (tokens : List Token) :
    (link tokens).toList = tokens.mapIdx (linkedAt tokens.length) := by
  induction tokens using List.reverseRecOn with
  | nil => rfl
  | append_singleton front token ih =>
    have size : (link front).size = front.length := by
      rw [← length_toList, ih, List.length_mapIdx]
    rw [link_append_singleton, toList_append, ih, size, modify_linked, List.mapIdx_append,
      List.length_append, List.length_singleton]
    simp

theorem size_link (tokens : List Token) : (link tokens).size = tokens.length := by
  rw [← length_toList, toList_link, List.length_mapIdx]

theorem get?_link (tokens : List Token) (place : Nat) :
    (link tokens).get? place = tokens[place]?.map (linkedAt tokens.length place) := by
  rw [get?_eq_getElem?, toList_link, List.getElem?_mapIdx]

/-- Linked tokens make an unbroken chain if no end of the source stands between them. -/
theorem unbroken_link {tokens : List Token}
    (ends : ∀ place token, tokens[place]? = some token →
      (token.kind = .startOfInput ↔ place = 0) ∧
        (token.kind = .endOfInput → place + 1 = tokens.length)) : (link tokens).Unbroken := by
  intro place token stored
  rw [get?_link] at stored
  obtain ⟨plain, found, rfl⟩ := Option.map_eq_some_iff.mp stored
  obtain ⟨atStart, atEnd⟩ := ends place plain found
  rw [size_link]
  exact ⟨rfl, rfl, rfl, atStart, atEnd⟩

theorem integral_link {tokens : List Token} (nonempty : tokens ≠ [])
    (ends : ∀ place token, tokens[place]? = some token →
      (token.kind = .startOfInput ↔ place = 0) ∧
        (token.kind = .endOfInput ↔ place + 1 = tokens.length)) : (link tokens).Integral := by
  refine ⟨by simpa [size_link, List.length_pos_iff] using nonempty, ?_⟩
  intro place token stored
  rw [get?_link] at stored
  obtain ⟨plain, found, rfl⟩ := Option.map_eq_some_iff.mp stored
  obtain ⟨atStart, atEnd⟩ := ends place plain found
  rw [size_link]
  exact placedAt_linkedAt atStart atEnd

end Chain

/-! ### Chains of sources -/

theorem Spaced.map_kind_tokens (cursor : Cursor) (gap : List Char) (body : Spaced) :
    (body.tokens cursor gap).map Token.kind =
      body.map (fun spaced => spaced.1.kind) ++ [.endOfInput] := by
  induction body generalizing cursor gap with
  | nil => rfl
  | cons spaced rest ih =>
    rw [tokens, List.map_cons, ih, List.map_cons, List.cons_append]
    rfl

theorem Spaced.WellFormed.spelled {body : Spaced} (formed : body.WellFormed) :
    ∀ spaced ∈ body, spaced.1.IsSpelled := by
  induction body with
  | nil => simp
  | cons spaced rest ih => exact List.forall_mem_cons.mpr ⟨formed.1, ih formed.2.2.2⟩

theorem Lexeme.IsSpelled.kind_ne_start {lexeme : Lexeme} (spelled : lexeme.IsSpelled) :
    lexeme.kind ≠ .startOfInput := by
  intro starts
  rw [IsSpelled, starts] at spelled
  exact spelled

/-- A list of kinds with the ends of a source around others has them nowhere else. -/
theorem ends_of_kinds {kinds inner : List Kind}
    (whole : kinds = .startOfInput :: (inner ++ [.endOfInput]))
    (others : ∀ kind ∈ inner, kind ≠ .startOfInput ∧ kind ≠ .endOfInput) {place : Nat} {kind : Kind}
    (found : kinds[place]? = some kind) :
    (kind = .startOfInput ↔ place = 0) ∧ (kind = .endOfInput ↔ place + 1 = kinds.length) := by
  subst whole
  cases place with
  | zero =>
    obtain rfl : Kind.startOfInput = kind := by simpa using found
    simp
  | succ place =>
    rw [List.getElem?_cons_succ] at found
    by_cases within : place < inner.length
    · rw [List.getElem?_append_left within] at found
      obtain ⟨noStart, noEnd⟩ := others kind (List.mem_of_getElem? found)
      refine ⟨by simp [noStart], ?_⟩
      simp only [noEnd, false_iff, List.length_cons, List.length_append, List.length_nil]
      omega
    · obtain ⟨bound, -⟩ := List.getElem?_eq_some_iff.mp found
      have last : place = inner.length := by
        simp only [List.length_append, List.length_singleton] at bound
        omega
      subst last
      obtain rfl : Kind.endOfInput = kind := by simpa using found
      simp

/-- A chain that is read from a source is integral. -/
theorem Chain.integral_of_ofSource {source : String} {chain : Chain}
    (read : ofSource source = .ok chain) : chain.Integral := by
  obtain ⟨reading, rfl⟩ := ofSource_eq_ok.mp read
  apply integral_link (by simp)
  intro place token found
  -- Between the two ends there are lexemes only, and no lexeme is an end.
  have others : ∀ kind ∈ reading.body.map (fun spaced => spaced.1.kind),
      kind ≠ .startOfInput ∧ kind ≠ .endOfInput := by
    intro kind member
    obtain ⟨spaced, among, rfl⟩ := List.mem_map.mp member
    have spelled := reading.formed.spelled spaced among
    exact ⟨spelled.kind_ne_start, spelled.kind_ne_end⟩
  have kinds := congrArg (List.cons Kind.startOfInput)
    (Spaced.map_kind_tokens .start reading.lead reading.body)
  have stored := congrArg (Option.map Token.kind) found
  rw [← List.getElem?_map, List.map_cons] at stored
  have placed := ends_of_kinds kinds others stored
  simpa using placed

end LinearSystem
