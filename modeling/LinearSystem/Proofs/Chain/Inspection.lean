import LinearSystem.Grammar.Inspection
import LinearSystem.Proofs.Grammar.Acceptance
/-!
Refused tokens leave no trace.

An inspection sets flags only after it has asked all that it asks (`Chain.atomic_inspect`), so a
refused token leaves them as they were, and later answers are what they would be without it. On an
integral chain the tokens in order are refused for the first time where the check of the whole chain
stops, and with its error (`Chain.refusals_leave_no_trace`).
-/
namespace LinearSystem

open Grammar

namespace Inspection

variable {α β : Type}

/-! ### Asking before setting -/

/-- Sets no flag. -/
def Asks (inspection : Inspection α) : Prop := ∀ seen, (inspection.start seen).2 = seen

/-- Stops with no error. -/
def Completes (inspection : Inspection α) : Prop :=
  ∀ seen, ∃ result after, inspection.start seen = (.ok result, after)

/-- Where it stops with an error, all flags are as they were before. -/
def Atomic (inspection : Inspection α) : Prop :=
  ∀ seen error after, inspection.start seen = (.error error, after) → after = seen

theorem start_pure (result : α) (seen : Seen) :
    (pure result : Inspection α).start seen = (.ok result, seen) := rfl

theorem start_bind (first : Inspection α) (next : α → Inspection β) (seen : Seen) :
    (first >>= next).start seen =
      match first.start seen with
      | (.ok result, after) => (next result).start after
      | (.error error, after) => (.error error, after) := by
  simp only [start, ExceptT.run_bind, StateT.run_bind]
  change (match first.run.run seen with | (_, _) => _) = _
  obtain ⟨answer, after⟩ := first.run.run seen
  cases answer with
  | ok result => rfl
  | error error => rfl

theorem Asks.atomic {inspection : Inspection α} (asks : inspection.Asks) : inspection.Atomic := by
  intro seen error after stopped
  have kept := asks seen
  rw [stopped] at kept
  exact kept

theorem Completes.atomic {inspection : Inspection α} (completes : inspection.Completes) :
    inspection.Atomic := by
  intro seen error after stopped
  obtain ⟨result, final, started⟩ := completes seen
  cases started.symm.trans stopped

theorem Completes.bind {first : Inspection α} {next : α → Inspection β}
    (completes : first.Completes) (later : ∀ result, (next result).Completes) :
    (first >>= next).Completes := by
  intro seen
  obtain ⟨result, after, started⟩ := completes seen
  rw [start_bind, started]
  exact later result after

/-- Whatever follows work that sets no flag starts from the flags that were there before it. -/
theorem Asks.atomic_bind {first : Inspection α} {next : α → Inspection β} (asks : first.Asks)
    (later : ∀ result, (next result).Atomic) : (first >>= next).Atomic := by
  intro seen error after stopped
  have kept := asks seen
  rw [start_bind] at stopped
  cases started : first.start seen with
  | mk answer middle =>
    rw [started] at stopped kept
    -- The work that comes later finds the flags of the start, and an error of it keeps these.
    obtain rfl : middle = seen := kept
    cases answer with
    | ok result => exact later result middle error after stopped
    | error found =>
      cases stopped
      rfl

theorem asks_pure (result : α) : (pure result : Inspection α).Asks := fun _ => rfl

theorem asks_askLinks (chain : Chain) (token : Token) : (askLinks chain token).Asks := by
  intro seen
  unfold askLinks
  split <;> rfl

theorem start_askRules (previous token : Token) (seen : Seen) :
    (askRules previous token).start seen =
      match seen.step previous.kind token.kind with
      | .ok _ => (.ok (), seen)
      | .error violation =>
        (.error (.grammar violation (if violation.blamesPrevious then previous else token)),
          seen) := by
  have got : (get : Inspection Seen).start seen = (.ok seen, seen) := rfl
  rw [askRules, start_bind, got]
  dsimp only
  cases seen.step previous.kind token.kind with
  | ok after => rfl
  | error violation => rfl

theorem asks_askRules (previous token : Token) : (askRules previous token).Asks := by
  intro seen
  rw [start_askRules]
  split <;> rfl

theorem completes_setVariable (provided : Bool) : (setVariable provided).Completes :=
  fun seen => ⟨(), { seen with hasVariable := provided }, rfl⟩

theorem completes_setRelation (provided : Bool) : (setRelation provided).Completes :=
  fun seen => ⟨(), { seen with hasRelation := provided }, rfl⟩

/-- Every kind of token asks first and sets its flags after that. -/
theorem atomic_pass (previous token : Token) : (pass previous token).Atomic := by
  have asks := asks_askRules previous token
  unfold pass
  cases token.kind with
  | startOfInput | coefficient => exact (asks_pure ()).atomic
  | endOfInput | times => exact asks.atomic
  | plus | minus => exact asks.atomic_bind fun _ => (completes_setVariable false).atomic
  | relation relation =>
    have sets := (completes_setVariable false).bind fun _ => completes_setRelation true
    exact asks.atomic_bind fun _ => sets.atomic
  | name => exact asks.atomic_bind fun _ => (completes_setVariable true).atomic
  | comma =>
    have sets := (completes_setVariable false).bind fun _ => completes_setRelation false
    exact asks.atomic_bind fun _ => sets.atomic

/-- The flags that are set are those that the rules say are seen. -/
theorem start_pass (previous token : Token) (seen : Seen) :
    (pass previous token).start seen =
      match Chain.follow seen previous token with
      | .ok after => (.ok (), after)
      | .error error => (.error error, seen) := by
  have asked := start_askRules previous token seen
  unfold Chain.follow pass
  cases stepped : seen.step previous.kind token.kind with
  | ok after =>
    rw [stepped] at asked
    -- What is seen after a token that is allowed depends on its kind, and so do the flags.
    obtain rfl := Seen.eq_next_of_step stepped
    cases token.kind with
    | startOfInput | coefficient => rfl
    | endOfInput | times => exact asked
    | plus | minus | relation | name | comma =>
      rw [start_bind, asked]
      rfl
  | error violation =>
    rw [stepped] at asked
    cases kind : token.kind with
    | startOfInput | coefficient =>
      rw [kind] at stepped
      cases stepped
    | endOfInput | times => exact asked
    | plus | minus | relation | name | comma => rw [start_bind, asked]

end Inspection

namespace Chain

open Inspection

theorem atomic_inspect (chain : Chain) (token : Token) : (chain.inspect token).Atomic := by
  apply (asks_askLinks chain token).atomic_bind
  intro _
  cases chain.prev? token with
  | none => exact (asks_pure ()).atomic
  | some previous => exact atomic_pass previous token

/-! ### Any tokens in any order -/

theorem flagsAfter_cons (chain : Chain) (seen : Seen) (token : Token) (rest : List Token) :
    chain.flagsAfter seen (token :: rest) =
      chain.flagsAfter ((chain.inspect token).start seen).2 rest := rfl

theorem history_cons (chain : Chain) (seen : Seen) (token : Token) (rest : List Token) :
    chain.history seen (token :: rest) =
      (token, ((chain.inspect token).start seen).1) ::
        chain.history ((chain.inspect token).start seen).2 rest := rfl

theorem history_append (chain : Chain) (seen : Seen) (first second : List Token) :
    chain.history seen (first ++ second) =
      chain.history seen first ++ chain.history (chain.flagsAfter seen first) second := by
  induction first generalizing seen with
  | nil => rfl
  | cons token rest ih =>
    rw [List.cons_append, history_cons, history_cons, ih, List.cons_append, flagsAfter_cons]

/-- The tokens that were not refused, with their answers. -/
def passed (chain : Chain) (seen : Seen) (tokens : List Token) :
    List (Token × Except CheckError Unit) :=
  (chain.history seen tokens).filter fun call => call.2.isOk

/-- Without the refused tokens the others are answered as they were and leave the same flags. -/
theorem history_passed (chain : Chain) (seen : Seen) (tokens : List Token) :
    chain.history seen ((chain.passed seen tokens).map Prod.fst) = chain.passed seen tokens ∧
      chain.flagsAfter seen ((chain.passed seen tokens).map Prod.fst) =
        chain.flagsAfter seen tokens := by
  induction tokens generalizing seen with
  | nil => exact ⟨rfl, rfl⟩
  | cons token rest ih =>
    rw [passed, history_cons, List.filter_cons, flagsAfter_cons]
    cases started : (chain.inspect token).start seen with
    | mk answer after =>
      obtain ⟨answers, flags⟩ := ih after
      cases answer with
      | ok _ =>
        -- A token that passed is checked again with the flags that it was checked with.
        have kept : Except.isOk (.ok () : Except CheckError Unit) = true := rfl
        rw [if_pos kept, List.map_cons, history_cons, flagsAfter_cons, started]
        exact ⟨congrArg _ answers, flags⟩
      | error error =>
        obtain rfl : after = seen := chain.atomic_inspect token seen error after started
        exact ⟨answers, flags⟩

/-! ### All tokens in order -/

/-- What an inspection answers and the flags that it leaves are what the check of a token says. -/
theorem start_inspect (chain : Chain) (token : Token) (seen : Seen) :
    (chain.inspect token).start seen = chain.submit seen token := by
  unfold inspect submit checkToken
  rw [start_bind, askLinks]
  by_cases together : chain.holdsTogetherAt token = true
  · rw [if_pos together, if_pos together, start_pure]
    dsimp only
    cases chain.prev? token with
    | none => rfl
    | some previous => exact start_pass previous token seen
  · rw [if_neg together, if_neg together]
    rfl

theorem answers_eq (chain : Chain) (seen : Seen) (tokens : List Token) :
    (chain.history seen tokens).map Prod.snd = chain.submitAll seen tokens := by
  induction tokens generalizing seen with
  | nil => rfl
  | cons token rest ih =>
    rw [history_cons, List.map_cons, ih, start_inspect]
    rfl

/-- The first error among answers, if there is one. -/
def firstRefusal (answers : List (Except CheckError Unit)) : Except CheckError Unit :=
  (answers.find? fun answer => !answer.isOk).getD (.ok ())

theorem firstRefusal_eq_ok {answers : List (Except CheckError Unit)} :
    firstRefusal answers = .ok () ↔ ∀ answer ∈ answers, answer = .ok () := by
  induction answers with
  | nil => simp [firstRefusal]
  | cons answer rest ih =>
    rw [List.forall_mem_cons, ← ih]
    cases answer with
    | ok _ => simp [firstRefusal, Except.isOk, Except.toBool]
    | error error => simp [firstRefusal, Except.isOk, Except.toBool]

/-- After a token of an integral chain, the others in order are refused for the first time where the
walk over them stops. -/
theorem Integral.firstRefusal_submitAll {chain : Chain} (integral : chain.Integral)
    {before rest : List Token} {previous : Token} (seen : Seen)
    (listed : chain.toList = before ++ previous :: rest) :
    firstRefusal (chain.submitAll seen rest) = (walk seen previous rest).map fun _ => () := by
  induction rest generalizing before previous seen with
  | nil => rfl
  | cons token rest ih =>
    have further : chain.toList = (before ++ [previous]) ++ token :: rest := by simp [listed]
    have stored : chain.get? (before.length + 1) = some token := by
      simpa using get?_of_listed further
    -- Up to the first error both go on with what has been seen; the walk has nothing after it.
    rw [submitAll, submit, integral.checkToken_next (get?_of_listed listed) stored, walk]
    cases follow seen previous token with
    | ok after => exact ih after further
    | error error => rfl

/-- A refused token leaves the flags as they were, whatever tokens they come from. So all later
answers are the same with and without the tokens that were refused before. The tokens of an integral
chain in order all pass if the chain is accepted, and otherwise the first of them that is refused is
refused with the error of the chain. -/
theorem refusals_leave_no_trace (chain : Chain) :
    (∀ seen token error after,
      (chain.inspect token).start seen = (.error error, after) → after = seen) ∧
    (∀ seen fed later, ∃ answers,
      chain.history seen (fed ++ later) = chain.history seen fed ++ answers ∧
      chain.history seen ((chain.passed seen fed).map Prod.fst ++ later) =
        chain.passed seen fed ++ answers) ∧
    (chain.Integral →
      let answers := (chain.history .nothing chain.toList).map Prod.snd
      ((∀ answer ∈ answers, answer = .ok ()) ↔ chain.check = .ok ()) ∧
        firstRefusal answers = chain.check) := by
  refine ⟨fun seen token => chain.atomic_inspect token seen, ?_, ?_⟩
  · intro seen fed later
    obtain ⟨answers, flags⟩ := chain.history_passed seen fed
    refine ⟨chain.history (chain.flagsAfter seen fed) later, history_append .., ?_⟩
    rw [history_append, answers, flags]
  · intro integral answers
    obtain ⟨first, between, last, listed, -⟩ := integral.exists_between
    have stored : chain.get? 0 = some first := @get?_of_listed chain [] _ first listed
    have whole : firstRefusal answers = chain.check := by
      have rest := @Integral.firstRefusal_submitAll chain integral [] _ first .nothing listed
      rw [integral.check_eq_walk listed, ← rest]
      -- The start of the source passes and changes nothing.
      simp only [answers, answers_eq, listed, submitAll, submit, integral.checkToken_first stored]
      rfl
    exact ⟨by rw [← whole, firstRefusal_eq_ok], whole⟩

/-- A second variable in a term, `x y = 1`: it is refused and forgotten, so the tokens after it
pass. -/
theorem second_variable_leaves_no_trace :
    let repeated : Token := ⟨.name, "y", 2, 3, ⟨1, 3⟩, 2, some 1, some 3⟩
    let tokens : List Token :=
      [⟨.startOfInput, "", 0, 0, ⟨1, 1⟩, 0, none, some 1⟩,
        ⟨.name, "x", 0, 1, ⟨1, 1⟩, 1, some 0, some 2⟩, repeated,
        ⟨.relation .equal, "=", 4, 5, ⟨1, 5⟩, 3, some 2, some 4⟩,
        ⟨.coefficient, "1", 6, 7, ⟨1, 7⟩, 4, some 3, some 5⟩,
        ⟨.endOfInput, "", 7, 7, ⟨1, 8⟩, 5, some 4, none⟩]
    let chain := ofList tokens
    let answers := (chain.history .nothing chain.toList).map Prod.snd
    chain.Integral ∧ answers.map Except.isOk = [true, true, false, true, true, true] ∧
      chain.check = .error (.grammar .variableRepeated repeated) ∧
      firstRefusal answers = chain.check := by
  intro repeated tokens chain answers
  have integral : chain.Integral := by decide
  have first := ((refusals_leave_no_trace chain).2.2 integral).2
  exact ⟨integral, by decide, by decide, first⟩

end Chain

end LinearSystem
