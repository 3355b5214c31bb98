import LinearSystem.Proofs.Chain.Linked
import LinearSystem.Proofs.Grammar.Acceptance
/-!
Refusals that come as early as they can.

Whatever the rules have taken, it can still be completed to a list of equations
(`Grammar.Seen.accepts_completion`), and what they have refused is refused whatever comes after it.
So the token at which the walk over an integral chain stops is the first that leaves no way to go
on: the kinds before it begin some accepted chain, and with its own kind they begin none
(`Chain.turns_hopeless_where_refused`).
-/
namespace LinearSystem

open Grammar

namespace Grammar

/-! ### Completing what was taken -/

/-- Kinds that bring an equation to its end wherever it was left: a factor for the term that is
open, and a right side if there is none. -/
def Seen.completion (seen : Seen) : List Kind :=
  .coefficient :: if seen.hasRelation then [] else [.relation .equal, .coefficient]

/-- A coefficient goes with every kind before it, and after it anything may end. -/
theorem Seen.accepts_completion (seen : Seen) (previous : Kind) :
    seen.Accepts previous (seen.completion ++ [.endOfInput]) := by
  cases related : seen.hasRelation <;>
    simp [completion, related, accepts_cons, accepts_nil, step, atRelation, atEnd, Kind.isSign,
      Kind.isRelation, Kind.relation?]

theorem Seen.inner_completion (seen : Seen) :
    ∀ kind ∈ seen.completion, kind ≠ .startOfInput ∧ kind ≠ .endOfInput := by
  cases related : seen.hasRelation <;> simp [completion, related]

/-! ### The sign that is blamed -/

/-- The one violation that is blamed on the token before says of it that it is a sign. -/
theorem Seen.isSign_of_signAtEnd {seen : Seen} {previous kind : Kind}
    (refused : seen.step previous kind = .error .signAtEnd) : previous.isSign = true := by
  cases kind <;>
    simp only [step, atEnd, atSign, atTimes, atRelation, atName, atComma] at refused
  case startOfInput | coefficient => cases refused
  all_goals
    repeat' split at refused
    all_goals first
      | cases refused; assumption
      | cases refused

theorem Violation.message_eq_signAtEnd {violation : Violation} :
    violation.message = "Unexpected binary operator at the end of the equation" ↔
      violation = .signAtEnd := by
  cases violation <;> decide

end Grammar

namespace Chain

/-- The kinds of the tokens in order. -/
def kinds (chain : Chain) : List Kind := chain.toList.map Token.kind

/-- Kinds that the rules accept are those of an accepted chain. -/
theorem exists_accepted {inner : List Kind}
    (others : ∀ kind ∈ inner, kind ≠ .startOfInput ∧ kind ≠ .endOfInput)
    (accepts : Seen.nothing.Accepts .startOfInput (inner ++ [.endOfInput])) :
    ∃ chain : Chain, chain.Integral ∧ chain.check = .ok () ∧
      chain.kinds = .startOfInput :: (inner ++ [.endOfInput]) := by
  -- The rules look at kinds alone, so tokens without text will do.
  let whole : List Kind := .startOfInput :: (inner ++ [.endOfInput])
  let tokens := whole.map fun kind => Token.unlinked kind [] .start .start
  have tokenKinds : tokens.map Token.kind = whole := by
    simp [tokens, Function.comp_def, Token.unlinked]
  have linkedKinds : (link tokens).kinds = whole := by
    rw [kinds, map_link (fun _ => rfl), tokenKinds]
  have integral : (link tokens).Integral := by
    apply integral_link (by simp [tokens, whole])
    intro place token found
    have stored := congrArg (Option.map Token.kind) found
    rw [← List.getElem?_map, tokenKinds] at stored
    have placed := @ends_of_kinds whole inner rfl others _ _ stored
    rwa [← tokenKinds, List.length_map] at placed
  have innerKinds : (link tokens).innerKinds = inner := by
    have between : (link tokens).innerKinds = (link tokens).kinds.tail.dropLast := rfl
    rw [between, linkedKinds]
    simp [whole]
  have accepted : (link tokens).check = .ok () := by
    rw [integral.accepted_iff, innerKinds]
    exact (accepts_iff others).mp accepts
  exact ⟨link tokens, integral, accepted, linkedKinds⟩

/-! ### The walk of a check -/

/-- The walk of a check comes to a token: so many tokens were visited before it, all of them passed,
and this is what has been seen of them. -/
inductive Visits (chain : Chain) : (place : Nat) → Seen → Token → Prop
  | head {first : Token} (headed : chain.head? = some first) : Visits chain 0 .nothing first
  | next {place : Nat} {seen after : Seen} {token successor : Token}
      (here : Visits chain place seen token) (inPlace : token.index = place)
      (passed : chain.checkToken seen token = .ok after) (more : token.kind ≠ .endOfInput)
      (linked : chain.next? token = some successor) : Visits chain (place + 1) after successor

/-- The walk of a check stops with an error at the token that it visits after so many others. -/
def StopsAt (chain : Chain) (place : Nat) (error : CheckError) : Prop :=
  ∃ seen token, chain.Visits place seen token ∧ token.index = place ∧
    chain.checkToken seen token = .error error

/-- What is left of a walk stops, if it finds a violation of the grammar, at a token that it comes
to. -/
theorem Visits.exists_stopsAt {chain : Chain} {tokens place : Nat} {seen : Seen}
    {token blamed : Token} {violation : Violation} (here : chain.Visits place seen token)
    (refused : chain.checkFrom tokens place seen token = .error (.grammar violation blamed)) :
    ∃ place, chain.StopsAt place (.grammar violation blamed) := by
  -- All other errors of the walk are faults of the links.
  induction tokens generalizing place seen token with
  | zero => cases refused
  | succ tokens ih =>
    unfold checkFrom at refused
    split at refused
    · cases refused
    next inPlace =>
      have inPlace : token.index = place := by simpa using inPlace
      split at refused
      next error stopped =>
        cases refused
        exact ⟨place, seen, token, here, inPlace, stopped⟩
      next after passed =>
        split at refused
        · split at refused <;> cases refused
        next more =>
          split at refused
          · cases refused
          next successor linked => exact ih (here.next inPlace passed more linked) refused

/-- A violation of the grammar is found while some token is visited. -/
theorem exists_stopsAt {chain : Chain} {violation : Violation} {blamed : Token}
    (refused : chain.check = .error (.grammar violation blamed)) :
    ∃ place, chain.StopsAt place (.grammar violation blamed) := by
  unfold check at refused
  split at refused
  · cases refused
  next first headed => exact (Visits.head headed).exists_stopsAt refused

namespace Integral

variable {chain : Chain}

/-- On an integral chain a token is asked about the one that is stored before it; the start of the
source is asked nothing, whatever is taken to stand before it. -/
theorem checkToken_eq (integral : chain.Integral) {before rest : List Token} {token : Token}
    (listed : chain.toList = before ++ token :: rest) (seen : Seen) :
    chain.checkToken seen token = follow seen (before.getLastD token) token := by
  have stored := get?_of_listed listed
  rcases List.eq_nil_or_concat before with rfl | ⟨front, previous, rfl⟩
  · have starts : token.kind = .startOfInput := (integral.placed stored).2.2.2.1.mpr rfl
    rw [integral.checkToken_first stored]
    simp [follow, Seen.step, starts]
  · have before : chain.get? front.length = some previous := by
      simp [get?_eq_getElem?, listed]
    rw [integral.checkToken_next before (by simpa using stored)]
    simp

theorem kind_getLastD (integral : chain.Integral) {before rest : List Token} {token : Token}
    (listed : chain.toList = before ++ token :: rest) :
    (before.getLastD token).kind = (before.map Token.kind).getLastD .startOfInput := by
  rcases List.eq_nil_or_concat before with rfl | ⟨front, previous, rfl⟩
  · exact (integral.placed (get?_of_listed listed)).2.2.2.1.mpr rfl
  · simp

/-- On an integral chain the walk visits the tokens in the order in which they are stored, and has
seen of them what the rules make of their kinds. -/
theorem cut_of_visits (integral : chain.Integral) {place : Nat} {seen : Seen} {token : Token}
    (visits : chain.Visits place seen token) :
    ∃ before rest, chain.toList = before ++ token :: rest ∧ before.length = place ∧
      Seen.nothing.run .startOfInput (before.map Token.kind) = .ok seen := by
  induction visits with
  | head headed =>
    have listed := headed
    rw [head?, get?_eq_getElem?, ← List.head?_eq_getElem?, List.head?_eq_some_iff] at listed
    obtain ⟨rest, listed⟩ := listed
    exact ⟨[], rest, listed, rfl, rfl⟩
  | @next place seen after token successor here inPlace passed more linked ih =>
    obtain ⟨before, rest, listed, length, ran⟩ := ih
    rw [integral.next?_eq (length ▸ get?_of_listed listed), get?_eq_getElem?, listed] at linked
    obtain ⟨rest, rfl⟩ : ∃ others, rest = successor :: others := by
      rw [← List.head?_eq_some_iff, List.head?_eq_getElem?, ← linked, ← length,
        List.getElem?_append_right (Nat.le_succ _)]
      simp
    refine ⟨before ++ [token], rest, by simp [listed], by simp [length], ?_⟩
    rw [integral.checkToken_eq listed, follow] at passed
    split at passed
    next stepped =>
      cases passed
      rw [integral.kind_getLastD listed] at stepped
      rw [List.map_append]
      exact Seen.run_append_eq_ok.mpr ⟨seen, ran, Seen.run_cons_eq_ok.mpr ⟨_, stepped, rfl⟩⟩
    · cases passed

end Integral

/-! ### Where a chain turns hopeless -/

/-- The kinds before a place begin an accepted chain, and with the kind at that place they begin
none, whatever might come after it. -/
structure TurnsHopelessAt (chain : Chain) (place : Nat) : Prop where
  viable : ∃ other : Chain, other.Integral ∧ other.check = .ok () ∧
    chain.kinds.take place <+: other.kinds
  hopeless : ∀ other : Chain, other.check = .ok () → ¬chain.kinds.take (place + 1) <+: other.kinds

/-- An error is located at the token at a place, but for a sign that nothing follows, which is the
token before it. -/
def LocatedAt (chain : Chain) (place : Nat) (error : CheckError) : Prop :=
  if error.message = "Unexpected binary operator at the end of the equation" then
    ∃ before sign, place = before + 1 ∧ chain.get? before = some sign ∧ sign.kind.isSign = true ∧
      error.location = sign.location
  else ∃ token, chain.get? place = some token ∧ error.location = token.location

theorem locatedAt_of_stored {chain : Chain} {place : Nat} {previous token : Token}
    {violation : Violation} (before : chain.get? place = some previous)
    (stored : chain.get? (place + 1) = some token)
    (sign : violation = .signAtEnd → previous.kind.isSign = true) :
    chain.LocatedAt (place + 1)
      (.grammar violation (if violation.blamesPrevious then previous else token)) := by
  have message : (CheckError.grammar violation
      (if violation.blamesPrevious then previous else token)).message = violation.message := rfl
  unfold LocatedAt
  rw [message]
  by_cases atEnd : violation = .signAtEnd
  · rw [if_pos (Violation.message_eq_signAtEnd.mpr atEnd)]
    refine ⟨place, previous, rfl, before, sign atEnd, ?_⟩
    simp [CheckError.location, Violation.blamesPrevious, atEnd]
  · rw [if_neg (mt Violation.message_eq_signAtEnd.mp atEnd)]
    refine ⟨token, stored, ?_⟩
    simp [CheckError.location, Violation.blamesPrevious, atEnd]

namespace Integral

variable {chain : Chain} {before rest : List Token} {token : Token} {seen : Seen}
  {violation : Violation}

theorem kinds_take (listed : chain.toList = before ++ token :: rest) :
    chain.kinds.take before.length = before.map Token.kind ∧
      chain.kinds.take (before.length + 1) = before.map Token.kind ++ [token.kind] := by
  simp [kinds, listed, List.take_add_one]

/-- The kinds of an integral chain that the rules have taken begin an accepted chain. -/
theorem exists_accepted_of_run (integral : chain.Integral)
    (listed : chain.toList = before ++ token :: rest) (started : before ≠ [])
    (ran : Seen.nothing.run .startOfInput (before.map Token.kind) = .ok seen) :
    ∃ other : Chain, other.Integral ∧ other.check = .ok () ∧
      chain.kinds.take before.length <+: other.kinds := by
  obtain ⟨first, front, rfl⟩ := List.exists_cons_of_ne_nil started
  have starts : first.kind = .startOfInput :=
    (integral.placed (@get?_of_listed chain [] _ first listed)).2.2.2.1.mpr rfl
  have others : ∀ kind ∈ front.map Token.kind, kind ≠ .startOfInput ∧ kind ≠ .endOfInput := by
    intro kind member
    obtain ⟨earlier, among, rfl⟩ := List.mem_map.mp member
    refine ⟨?_, integral.ne_end_of_before listed earlier (List.mem_cons_of_mem _ among)⟩
    intro starts
    obtain ⟨between, later, rfl⟩ := List.append_of_mem among
    have stored := @get?_of_listed chain (first :: between) (later ++ token :: rest) earlier
      (by simpa using listed)
    simpa using (integral.placed stored).2.2.2.1.mp starts
  -- The start of the source changes nothing, so the rules have taken the others from there.
  obtain ⟨middle, stepped, ran⟩ := Seen.run_cons_eq_ok.mp ran
  rw [starts] at stepped ran
  cases stepped
  have accepts : Seen.nothing.Accepts .startOfInput
      (front.map Token.kind ++ seen.completion ++ [.endOfInput]) := by
    rw [List.append_assoc, Seen.accepts_append]
    exact ⟨seen, ran, seen.accepts_completion _⟩
  obtain ⟨other, integral', accepted, kinds⟩ :=
    exists_accepted (List.forall_mem_append.mpr ⟨others, seen.inner_completion⟩) accepts
  refine ⟨other, integral', accepted, seen.completion ++ [.endOfInput], ?_⟩
  rw [(kinds_take listed).1, kinds]
  simp [starts]

/-- Kinds that the rules refuse begin no accepted chain. -/
theorem not_accepted_of_step (integral : chain.Integral)
    (listed : chain.toList = before ++ token :: rest)
    (ran : Seen.nothing.run .startOfInput (before.map Token.kind) = .ok seen)
    (stepped : seen.step (before.getLastD token).kind token.kind = .error violation)
    {other : Chain} (accepted : other.check = .ok ()) :
    ¬chain.kinds.take (before.length + 1) <+: other.kinds := by
  rintro ⟨more, whole⟩
  rw [(kinds_take listed).2, List.append_assoc] at whole
  have accepts := accepts_of_check accepted
  rw [← kinds, ← whole, Seen.accepts_append] at accepts
  obtain ⟨after, ran', accepts⟩ := accepts
  -- An accepted chain has passed the kinds before this one, to the same state, and then this one.
  cases ran.symm.trans ran'
  rw [List.singleton_append, Seen.accepts_cons, ← integral.kind_getLastD listed] at accepts
  obtain ⟨later, taken, -⟩ := accepts
  cases stepped.symm.trans taken

end Integral

/-- An integral chain that is refused for its grammar is refused at the first token with which it
cannot be part of an accepted chain any more, and the error is located there or, for a sign that
nothing follows, at that sign. -/
theorem turns_hopeless_where_refused {chain : Chain} {violation : Violation} {blamed : Token}
    (integral : chain.Integral) (refused : chain.check = .error (.grammar violation blamed)) :
    (∃ place, chain.StopsAt place (.grammar violation blamed)) ∧
    ∀ place, chain.StopsAt place (.grammar violation blamed) →
      chain.TurnsHopelessAt place ∧ chain.LocatedAt place (.grammar violation blamed) := by
  refine ⟨exists_stopsAt refused, ?_⟩
  rintro place ⟨seen, token, visits, -, stopped⟩
  obtain ⟨before, rest, listed, rfl, ran⟩ := integral.cut_of_visits visits
  rw [integral.checkToken_eq listed, follow] at stopped
  split at stopped
  · cases stopped
  next found stepped =>
    cases stopped
    -- The start of the source is refused by no rule, so there is a token before this one.
    obtain ⟨front, previous, rfl⟩ : ∃ front previous, before = front ++ [previous] := by
      rcases List.eq_nil_or_concat before with rfl | cut
      · have starts : token.kind = .startOfInput :=
          (integral.placed (get?_of_listed listed)).2.2.2.1.mpr rfl
        simp [starts, Seen.step] at stepped
      · simpa using cut
    refine ⟨⟨integral.exists_accepted_of_run listed (by simp) ran, fun other =>
      integral.not_accepted_of_step listed ran stepped⟩, ?_⟩
    rw [List.getLastD_concat, List.length_append, List.length_singleton]
    have stored : chain.get? front.length = some previous := by
      simp [get?_eq_getElem?, listed]
    apply locatedAt_of_stored stored
    · simpa using get?_of_listed listed
    · rintro rfl
      simpa using Seen.isSign_of_signAtEnd stepped

/-- A sum that breaks off after its sign: `x = 1 -`. It might have gone on after the sign, so the
end of the source is what makes it hopeless, and the sign is blamed. -/
theorem turns_hopeless_after_sign :
    let sign : Token := ⟨.minus, "-", 6, 7, ⟨1, 7⟩, 4, some 3, some 5⟩
    let tokens : List Token :=
      [⟨.startOfInput, "", 0, 0, ⟨1, 1⟩, 0, none, some 1⟩,
        ⟨.name, "x", 0, 1, ⟨1, 1⟩, 1, some 0, some 2⟩,
        ⟨.relation .equal, "=", 2, 3, ⟨1, 3⟩, 2, some 1, some 3⟩,
        ⟨.coefficient, "1", 4, 5, ⟨1, 5⟩, 3, some 2, some 4⟩, sign,
        ⟨.endOfInput, "", 7, 7, ⟨1, 8⟩, 5, some 4, none⟩]
    let chain := ofList tokens
    chain.Integral ∧ chain.check = .error (.grammar .signAtEnd sign) ∧
    (∃ place, chain.StopsAt place (.grammar .signAtEnd sign)) ∧
    ∀ place, chain.StopsAt place (.grammar .signAtEnd sign) →
      chain.TurnsHopelessAt place ∧ chain.LocatedAt place (.grammar .signAtEnd sign) := by
  intro sign tokens chain
  have integral : chain.Integral := by decide
  have refused : chain.check = .error (.grammar .signAtEnd sign) := by decide
  exact ⟨integral, refused, turns_hopeless_where_refused integral refused⟩

end Chain

end LinearSystem
