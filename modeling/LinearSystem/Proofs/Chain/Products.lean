import LinearSystem.Proofs.Chain.Comparison
import Mathlib.Data.List.Chain
/-!
Explicit products between factors.

A product that stands between two factors is allowed by the rules, and what comes after it is
judged as if it were not there: to a factor it does not matter what comes before it. So the walk
over a chain in which all products stand so is the walk over its other tokens
(`Chain.walk_filter`).
-/
namespace LinearSystem

open Grammar

namespace Kind

/-- What terms multiply. -/
def IsFactor (kind : Kind) : Prop := kind = .coefficient ∨ kind = .name

instance (kind : Kind) : Decidable kind.IsFactor :=
  inferInstanceAs (Decidable (kind = .coefficient ∨ kind = .name))

/-- The kind may stand directly before the next one where products stand between factors only. -/
def Adjoins (kind next : Kind) : Prop :=
  (next = .times → kind.IsFactor) ∧ (kind = .times → next.IsFactor)

theorem IsFactor.ne_times {kind : Kind} (factor : kind.IsFactor) : kind ≠ .times := by
  rintro rfl
  rcases factor with same | same <;> cases same

/-- Without a product the factors on its sides stand beside each other. -/
theorem isChain_of_times {previous : Kind} {rest : List Kind}
    (chained : (previous :: .times :: rest).IsChain Adjoins) :
    previous.IsFactor ∧ (∀ next ∈ rest.head?, next.IsFactor) ∧
      (previous :: rest).IsChain Adjoins := by
  obtain ⟨⟨before, -⟩, later⟩ := List.isChain_cons_cons.mp chained
  obtain ⟨after, others⟩ := List.isChain_cons.mp later
  have factor := before rfl
  refine ⟨factor, fun next member => (after next member).2 rfl, ?_⟩
  refine List.isChain_cons.mpr ⟨fun next member => ?_, others⟩
  have nextFactor := (after next member).2 rfl
  exact ⟨fun _ => factor, fun _ => nextFactor⟩

end Kind

namespace Chain

/-- Every explicit product has a factor directly before it and one directly after it. -/
def MultipliesFactors (chain : Chain) : Prop :=
  ∀ token ∈ chain.toList, token.kind = .times →
    (chain.prev? token).any (fun before => before.kind.IsFactor) ∧
      (chain.next? token).any (fun after => after.kind.IsFactor)

instance (chain : Chain) : Decidable chain.MultipliesFactors :=
  List.decidableBAll _ _

theorem Integral.isChain_adjoins {chain : Chain} (integral : chain.Integral)
    (products : chain.MultipliesFactors) : (chain.toList.map Token.kind).IsChain Kind.Adjoins := by
  rw [List.isChain_map, List.isChain_iff_getElem]
  intro place bound
  have here : chain.get? place = some chain.toList[place] := by simp [get?_eq_getElem?]
  have next : chain.get? (place + 1) = some chain.toList[place + 1] := by
    simp [get?_eq_getElem?]
  -- A product may be the second of two neighbours or the first.
  constructor
  · intro isTimes
    have factor := (products _ (List.getElem_mem bound) isTimes).1
    rw [integral.prev?_eq next, here] at factor
    simpa using factor
  · intro isTimes
    have factor := (products _ (List.getElem_mem _) isTimes).2
    rw [integral.next?_eq here, next] at factor
    simpa using factor

/-! ### Walking past products -/

/-- What a factor is asked does not depend on the token before it. -/
theorem follow_of_isFactor (seen : Seen) {token : Token} (factor : token.kind.IsFactor)
    (previous previous' : Token) : follow seen previous token = follow seen previous' token := by
  unfold follow
  -- A number is asked nothing, and a second name in a term is itself to blame.
  rcases factor with kind | kind
  · simp [kind, Seen.step]
  · simp only [kind, Seen.step, Seen.atName]
    cases seen.hasVariable <;> rfl

theorem follow_times (seen : Seen) {previous token : Token} (factor : previous.kind.IsFactor)
    (isTimes : token.kind = .times) : follow seen previous token = .ok seen := by
  simp [follow, isTimes, Seen.step, Seen.atTimes, factor.ne_times]

/-- Tokens that begin with a factor, if they are any, may come after any token. -/
theorem walk_of_isFactor (seen : Seen) {tokens : List Token}
    (factor : ∀ kind ∈ (tokens.map Token.kind).head?, kind.IsFactor) (previous previous' : Token) :
    walk seen previous tokens = walk seen previous' tokens := by
  cases tokens with
  | nil => rfl
  | cons token rest =>
    rw [walk_cons, walk_cons, follow_of_isFactor seen (factor token.kind rfl) previous previous']

/-- Where products stand between factors only, the rules ask about the other tokens. -/
theorem walk_filter (seen : Seen) {previous : Token} {tokens : List Token}
    (chained : (previous.kind :: tokens.map Token.kind).IsChain Kind.Adjoins) :
    walk seen previous (tokens.filter (·.kind ≠ .times)) = walk seen previous tokens := by
  -- After a product the walk over the other tokens is still at the factor before it.
  induction tokens generalizing seen previous with
  | nil => rfl
  | cons token rest ih =>
    by_cases isTimes : token.kind = .times
    · rw [List.map_cons, isTimes] at chained
      obtain ⟨before, after, others⟩ := Kind.isChain_of_times chained
      have passed := follow_times seen before isTimes
      rw [List.filter_cons_of_neg (by simp [isTimes]), ih seen others, walk_cons, passed]
      exact walk_of_isFactor seen after previous token
    · rw [List.filter_cons_of_pos (by simp [isTimes]), walk_cons, walk_cons]
      congr 1
      funext after
      exact ih after chained.tail

/-- A chain in which products stand between factors and a chain of its other tokens are both
accepted or both refused, for one violation. -/
theorem Integral.check_corresponds_filter {related : Token → Token → Prop}
    (kinds : ∀ token token', related token token' → token.kind = token'.kind)
    {chain others : Chain} (integral : chain.Integral) (integral' : others.Integral)
    (products : chain.MultipliesFactors)
    (tokens : List.Forall₂ related (chain.toList.filter (·.kind ≠ .times)) others.toList) :
    Corresponds (SameViolation related) Eq chain.check others.check := by
  obtain ⟨first, between, last, listed, starts, -⟩ := integral.exists_between
  obtain ⟨first', between', last', listed', -⟩ := integral'.exists_between
  have chained := integral.isChain_adjoins products
  rw [listed, List.map_cons] at chained
  -- The start of the source is no product, so both walks begin there.
  rw [listed, listed', List.filter_cons_of_pos (by simp [starts])] at tokens
  obtain ⟨start, rest⟩ := List.forall₂_cons.mp tokens
  rw [integral.check_eq_walk listed, integral'.check_eq_walk listed', ← walk_filter _ chained]
  exact (walk_corresponds kinds .nothing start rest).map fun _ _ _ => rfl

end Chain

end LinearSystem
