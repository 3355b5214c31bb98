import LinearSystem.Proofs.Chain.Walk
import Mathlib.Data.List.Forall2
/-!
Two chains side by side.

The rules look at nothing but the kinds of tokens. So integral chains with the same kinds are both
accepted or both refused, for one and the same violation and with blame on tokens that stand at the
same place (`Chain.Integral.check_corresponds`), whatever else sets their tokens apart.
-/
namespace LinearSystem

open Grammar

/-- Two outcomes are of one sort: both refuse, or both give a result. -/
inductive Corresponds {ε ε' α β : Type} (refusals : ε → ε' → Prop) (results : α → β → Prop) :
    Except ε α → Except ε' β → Prop
  | error {refusal : ε} {refusal' : ε'} (same : refusals refusal refusal') :
      Corresponds refusals results (.error refusal) (.error refusal')
  | ok {result : α} {result' : β} (same : results result result') :
      Corresponds refusals results (.ok result) (.ok result')

namespace Corresponds

variable {ε ε' α β γ δ : Type} {refusals refusals' : ε → ε' → Prop}
  {results results' : α → β → Prop} {outcome : Except ε α} {outcome' : Except ε' β}

theorem exists_error {refusal : ε} (both : Corresponds refusals results (.error refusal) outcome') :
    ∃ refusal', outcome' = .error refusal' ∧ refusals refusal refusal' := by
  cases both with
  | error same => exact ⟨_, rfl, same⟩

theorem exists_ok {result : α} (both : Corresponds refusals results (.ok result) outcome') :
    ∃ result', outcome' = .ok result' ∧ results result result' := by
  cases both with
  | ok same => exact ⟨_, rfl, same⟩

theorem imp (both : Corresponds refusals results outcome outcome')
    (onError : ∀ refusal refusal', refusals refusal refusal' → refusals' refusal refusal')
    (onOk : ∀ result result', results result result' → results' result result') :
    Corresponds refusals' results' outcome outcome' := by
  cases both with
  | error same => exact .error (onError _ _ same)
  | ok same => exact .ok (onOk _ _ same)

theorem map {first : α → γ} {second : β → δ} {mapped : γ → δ → Prop}
    (both : Corresponds refusals results outcome outcome')
    (onOk : ∀ result result', results result result' → mapped (first result) (second result')) :
    Corresponds refusals mapped (outcome.map first) (outcome'.map second) := by
  cases both with
  | error same => exact .error same
  | ok same => exact .ok (onOk _ _ same)

end Corresponds

/-- Refusals for one violation, with blame on related tokens. -/
inductive SameViolation (related : Token → Token → Prop) : CheckError → CheckError → Prop
  | grammar (violation : Violation) {blamed blamed' : Token} (same : related blamed blamed') :
      SameViolation related (.grammar violation blamed) (.grammar violation blamed')

namespace Chain

variable {related : Token → Token → Prop}
  (kinds : ∀ token token', related token token' → token.kind = token'.kind)

include kinds

/-- The rules ask about the kinds of two tokens, and blame one of the two. -/
theorem follow_corresponds (seen : Seen) {previous previous' token token' : Token}
    (before : related previous previous') (here : related token token') :
    Corresponds (SameViolation related) Eq (follow seen previous token)
      (follow seen previous' token') := by
  unfold follow
  rw [kinds _ _ before, kinds _ _ here]
  cases seen.step previous'.kind token'.kind with
  | ok next => exact .ok rfl
  | error violation =>
    refine .error (.grammar violation ?_)
    split
    · exact before
    · exact here

theorem walk_corresponds (seen : Seen) {previous previous' : Token} {tokens tokens' : List Token}
    (before : related previous previous') (after : List.Forall₂ related tokens tokens') :
    Corresponds (SameViolation related) Eq (walk seen previous tokens)
      (walk seen previous' tokens') := by
  induction after generalizing seen previous previous' with
  | nil => exact .ok rfl
  | @cons token token' _ _ here rest ih =>
    -- What has been seen is the same in both chains, so the walks go on alike or stop together.
    have both := follow_corresponds kinds seen before here
    rw [walk, walk]
    generalize follow seen previous token = outcome at both ⊢
    generalize follow seen previous' token' = outcome' at both ⊢
    cases both with
    | error same => exact .error same
    | ok same =>
      subst same
      exact ih _ here

/-- Chains of related tokens are both accepted or both refused, for one violation. -/
theorem Integral.check_corresponds {chain chain' : Chain} (integral : chain.Integral)
    (integral' : chain'.Integral) (tokens : List.Forall₂ related chain.toList chain'.toList) :
    Corresponds (SameViolation related) Eq chain.check chain'.check := by
  obtain ⟨first, between, last, listed, -⟩ := integral.exists_between
  obtain ⟨first', between', last', listed', -⟩ := integral'.exists_between
  rw [listed, listed'] at tokens
  obtain ⟨start, rest⟩ := List.forall₂_cons.mp tokens
  rw [integral.check_eq_walk listed, integral'.check_eq_walk listed']
  exact (walk_corresponds kinds .nothing start rest).map fun _ _ _ => rfl

end Chain

end LinearSystem
