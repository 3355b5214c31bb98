import LinearSystem.Command.Run
import LinearSystem.Proofs.Chain.Linked
import LinearSystem.Proofs.Grammar.Acceptance
/-!
The status of a run.

Two is the status of a chain that does not hold together. A chain that was read from a source always
does, so whatever is asked of a source, a refusal blames the source (`Source.blamesInput_of_chain`)
and no run on it exits with that status.
-/
namespace LinearSystem

namespace Chain

theorem check_ne_integrity {source : String} {chain : Chain} (read : ofSource source = .ok chain)
    (place : Location) : chain.check ≠ .error (.integrity place) := by
  intro broken
  obtain ⟨violation, blamed, same⟩ := (integral_of_ofSource read).grammar_of_check broken
  cases same

end Chain

namespace Source

theorem blamesInput_of_chain {source : String} {diagnostic : Diagnostic}
    (refused : chain source = .error diagnostic) : diagnostic.blamesInput = true := by
  unfold chain at refused
  split at refused
  · cases refused
    rfl
  next read =>
    split at refused
    next error broken =>
      obtain ⟨violation, blamed, rfl⟩ :=
        (Chain.integral_of_ofSource read).grammar_of_check broken
      cases refused
      rfl
    · cases refused

/-- Parsing refuses what has no chain, and nothing else. -/
theorem parse_eq_error {table : SymbolTable} {source : String} {diagnostic : Diagnostic}
    (refused : (parse table source).1 = .error diagnostic) :
    chain source = .error diagnostic := by
  unfold parse parseWith at refused
  split at refused
  next found =>
    cases refused
    exact found
  · cases refused

end Source

namespace Command

theorem exitCode_refused (output : String) {diagnostic : Diagnostic}
    (blames : diagnostic.blamesInput = true) :
    (Outcome.refused output diagnostic).exitCode = 1 := by
  simp [Outcome.refused, blames]

/-- What is asked of a source fails with one, if it fails. -/
theorem exitCode_run (task : Task) (source : String) :
    (task.run source).exitCode = 0 ∨ (task.run source).exitCode = 1 := by
  cases task with
  | tokens =>
    rw [Task.run, listTokens]
    split
    next => exact .inr (exitCode_refused _ rfl)
    next => exact .inl rfl
  | check =>
    rw [Task.run, checkSource]
    split
    next => exact .inl rfl
    next refused => exact .inr (exitCode_refused _ (Source.blamesInput_of_chain refused))
  | equations format =>
    rw [Task.run, normalize]
    split
    next diagnostic _ refused =>
      have unread := Source.parse_eq_error (congrArg Prod.fst refused)
      exact .inr (exitCode_refused _ (Source.blamesInput_of_chain unread))
    next =>
      cases format with
      | text => exact .inl rfl
      | json => exact .inl rfl

/-- A chain that is read from a source is integral, so checking it finds no fault of the chain,
parsing reports none, and no combination of options makes a run exit with the status of one. -/
theorem no_chain_fault (source : String) :
    (∀ chain, Chain.ofSource source = .ok chain →
      chain.Integral ∧ ∀ place, chain.check ≠ .error (.integrity place)) ∧
    (∀ table diagnostic, (Source.parse table source).1 = .error diagnostic →
      diagnostic.stage ≠ .integrity) ∧
    ∀ settings : Settings, (settings.task.run source).exitCode ≠ 2 := by
  refine ⟨?_, ?_, ?_⟩
  · intro chain read
    exact ⟨Chain.integral_of_ofSource read, Chain.check_ne_integrity read⟩
  · intro table diagnostic refused
    have blames := Source.blamesInput_of_chain (Source.parse_eq_error refused)
    simpa [Diagnostic.blamesInput] using blames
  · intro settings
    rcases exitCode_run settings.task source with success | failure
    · simp [success]
    · simp [failure]

end Command

end LinearSystem
