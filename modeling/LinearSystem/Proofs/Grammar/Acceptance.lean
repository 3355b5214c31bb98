import LinearSystem.Proofs.Chain.Walk
import LinearSystem.Proofs.Grammar.Recognition
/-!
The chains that are accepted.

A chain is accepted if and only if it is integral and the kinds between its ends are a list of
equations (`Chain.check_eq_ok_iff`). An integral chain is refused for its grammar alone, however its
tokens were made.
-/
namespace LinearSystem

open Grammar

namespace Chain

/-- The kinds between the first token and the last. -/
def innerKinds (chain : Chain) : List Kind := (chain.toList.map Token.kind).tail.dropLast

theorem innerKinds_eq {chain : Chain} {first last : Token} {between : List Token}
    (listed : chain.toList = first :: (between ++ [last])) :
    chain.innerKinds = between.map Token.kind := by
  simp [innerKinds, listed]

/-- The kinds of an integral chain are those between its ends, which are none of them ends. -/
theorem Integral.kinds_eq {chain : Chain} (integral : chain.Integral) :
    chain.toList.map Token.kind = .startOfInput :: (chain.innerKinds ++ [.endOfInput]) ∧
      ∀ kind ∈ chain.innerKinds, kind ≠ .startOfInput ∧ kind ≠ .endOfInput := by
  obtain ⟨first, between, last, listed, starts, ends, inner⟩ := integral.exists_between
  rw [innerKinds_eq listed]
  constructor
  · simp [listed, starts, ends]
  · intro kind member
    obtain ⟨token, among, rfl⟩ := List.mem_map.mp member
    exact inner token among

/-! ### Walking -/

theorem walk_eq_ok {seen after : Seen} {previous : Token} {tokens : List Token} :
    walk seen previous tokens = .ok after ↔
      seen.run previous.kind (tokens.map Token.kind) = .ok after := by
  induction tokens generalizing seen previous with
  | nil => simp [walk, Seen.run]
  | cons token rest ih =>
    simp only [walk, follow, List.map_cons, Seen.run]
    cases stepped : seen.step previous.kind token.kind with
    | error violation => simp
    | ok middle => simpa using ih

/-- Walking looks at no link, so it finds nothing but violations of the grammar, and blames them on
tokens that it walked over. -/
theorem blamed_of_walk {seen : Seen} {previous : Token} {tokens : List Token} {error : CheckError}
    (refused : walk seen previous tokens = .error error) :
    ∃ violation, ∃ blamed ∈ previous :: tokens, error = .grammar violation blamed := by
  induction tokens generalizing seen previous with
  | nil => cases refused
  | cons token rest ih =>
    simp only [walk, follow] at refused
    cases stepped : seen.step previous.kind token.kind with
    | error violation =>
      simp only [stepped] at refused
      cases refused
      refine ⟨violation, _, ?_, rfl⟩
      split <;> simp
    | ok middle =>
      simp only [stepped] at refused
      obtain ⟨violation, blamed, among, same⟩ := ih refused
      exact ⟨violation, blamed, List.mem_cons_of_mem previous among, same⟩

/-- Checking the first tokens of an integral chain is running the rules over their kinds. -/
theorem Integral.foldlM_checkToken {chain : Chain} (integral : chain.Integral)
    {tokens rest : List Token} {seen : Seen} (listed : chain.toList = tokens ++ rest)
    (ran : Seen.nothing.run .startOfInput (tokens.map Token.kind) = .ok seen) :
    tokens.foldlM chain.checkToken .nothing = .ok seen := by
  -- The last of the tokens is asked about the one before it, so the induction is from the end.
  induction tokens using List.reverseRecOn generalizing rest seen with
  | nil =>
    cases ran
    rfl
  | append_singleton front token ih =>
    rw [List.map_append] at ran
    obtain ⟨middle, frontRan, ran⟩ := Seen.run_append_eq_ok.mp ran
    obtain ⟨after, stepped, ran⟩ := Seen.run_cons_eq_ok.mp ran
    cases ran
    have checked := ih (by simpa using listed) frontRan
    have stored : chain.get? front.length = some token :=
      get?_of_listed (by simpa using listed)
    suffices last : chain.checkToken middle token = .ok seen by
      simp [List.foldlM_append, checked, bind, Except.bind, last, pure, Except.pure]
    rcases List.eq_nil_or_concat front with rfl | ⟨front, previous, rfl⟩
    · -- The start of the source is asked nothing and changes nothing.
      have starts := (integral.placed stored).2.2.2.1.mpr rfl
      rw [starts] at stepped
      cases stepped
      exact integral.checkToken_first stored _
    · have before : chain.get? front.length = some previous := by
        simp [get?_eq_getElem?, listed]
      have stepped : middle.step previous.kind token.kind = .ok seen := by simpa using stepped
      rw [integral.checkToken_next before (by simpa using stored), follow, stepped]

/-! ### Acceptance -/

theorem Integral.accepted_iff {chain : Chain} (integral : chain.Integral) :
    chain.check = .ok () ↔ IsEquationList chain.innerKinds := by
  obtain ⟨kinds, inner⟩ := integral.kinds_eq
  obtain ⟨first, between, last, listed, -⟩ := integral.exists_between
  rw [integral.check_eq_walk listed, ← accepts_iff inner]
  rw [listed, List.map_cons] at kinds
  obtain ⟨starts, rest⟩ := List.cons.inj kinds
  -- The walk and the rules succeed together, and leave the same behind.
  have walked (after : Seen) : walk .nothing first (between ++ [last]) = .ok after ↔
      Seen.nothing.run .startOfInput (chain.innerKinds ++ [.endOfInput]) = .ok after := by
    rw [walk_eq_ok, starts, rest]
  simp only [Seen.Accepts, ← walked]
  cases walk .nothing first (between ++ [last]) <;> simp [Except.map]

theorem accepts_of_check {chain : Chain} (accepted : chain.check = .ok ()) :
    Seen.nothing.Accepts .startOfInput (chain.toList.map Token.kind) := by
  have integral := integral_of_check accepted
  obtain ⟨kinds, inner⟩ := integral.kinds_eq
  rw [kinds, Seen.accepts_cons]
  exact ⟨.nothing, rfl, (accepts_iff inner).mpr (integral.accepted_iff.mp accepted)⟩

/-- What an integral chain is refused for is a violation of the grammar by one of its tokens. -/
theorem Integral.blamed_of_check {chain : Chain} {error : CheckError} (integral : chain.Integral)
    (refused : chain.check = .error error) :
    ∃ violation, ∃ blamed ∈ chain.toList, error = .grammar violation blamed := by
  obtain ⟨first, between, last, listed, -⟩ := integral.exists_between
  rw [integral.check_eq_walk listed] at refused
  cases walked : walk .nothing first (between ++ [last]) with
  | ok after => simp [walked, Except.map] at refused
  | error found =>
    simp only [walked, Except.map, Except.error.injEq] at refused
    rw [listed, ← refused]
    exact blamed_of_walk walked

theorem Integral.grammar_of_check {chain : Chain} {error : CheckError} (integral : chain.Integral)
    (refused : chain.check = .error error) :
    ∃ violation blamed, error = .grammar violation blamed := by
  obtain ⟨violation, blamed, -, same⟩ := integral.blamed_of_check refused
  exact ⟨violation, blamed, same⟩

/-- Whatever tokens a chain is made of, it is accepted if and only if it is integral and holds a
list of equations, and if only the equations are wrong the error is one of grammar. -/
theorem check_eq_ok_iff (tokens : List Token) :
    ((ofList tokens).check = .ok () ↔
      (ofList tokens).Integral ∧ IsEquationList (ofList tokens).innerKinds) ∧
    ((ofList tokens).Integral → ¬IsEquationList (ofList tokens).innerKinds →
      ∃ violation blamed, (ofList tokens).check = .error (.grammar violation blamed)) := by
  constructor
  · constructor
    · intro accepted
      have integral := integral_of_check accepted
      exact ⟨integral, integral.accepted_iff.mp accepted⟩
    · rintro ⟨integral, equations⟩
      exact integral.accepted_iff.mpr equations
  · intro integral noEquations
    -- The links are right, so the check is a walk, and that is refused by the rules only.
    cases checked : (ofList tokens).check with
    | ok _ => exact absurd (integral.accepted_iff.mp checked) noEquations
    | error error =>
      obtain ⟨violation, blamed, rfl⟩ := integral.grammar_of_check checked
      exact ⟨violation, blamed, rfl⟩

/-- Links are no help against the grammar: a chain of nothing but a variable is integral and is
refused for its equation. -/
theorem check_lone_name :
    let name : Token := ⟨.name, "x", 0, 1, ⟨1, 1⟩, 1, some 0, some 2⟩
    let tokens : List Token :=
      [⟨.startOfInput, "", 0, 0, ⟨1, 1⟩, 0, none, some 1⟩, name,
        ⟨.endOfInput, "", 1, 1, ⟨1, 2⟩, 2, some 1, none⟩]
    (ofList tokens).Integral ∧ ¬IsEquationList (ofList tokens).innerKinds ∧
      ∃ violation blamed, (ofList tokens).check = .error (.grammar violation blamed) := by
  intro name tokens
  have integral : (ofList tokens).Integral := by decide
  have noEquations : ¬IsEquationList (ofList tokens).innerKinds := by
    rintro (empty | equations)
    · cases empty
    · obtain ⟨left, relation, right, same, -⟩ := equations [.name] (by decide)
      have member : Kind.relation relation ∈ [Kind.name] := by simp [same]
      simp at member
  exact ⟨integral, noEquations, (check_eq_ok_iff tokens).2 integral noEquations⟩

end Chain

end LinearSystem
