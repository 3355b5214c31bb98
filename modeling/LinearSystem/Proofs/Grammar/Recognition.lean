import LinearSystem.Grammar.Rules
import LinearSystem.Proofs.Grammar.Language
/-!
The rules as a machine that recognizes the lists of equations.

The rules see one kind and the one before it. Run over the kinds of a text and its end, they succeed
on the lists of equations and on nothing else (`accepts_iff`). Between two commas they succeed on an
equation (`run_equation_iff`), and on either side of its relational operator on a side
(`isSide_iff`).
-/
namespace LinearSystem.Grammar

/-! ### Runs of the rules -/

namespace Seen

/-- Takes kinds one after the other, the first of them after a previous one. -/
def run (seen : Seen) (previous : Kind) : List Kind → Except Violation Seen
  | [] => .ok seen
  | kind :: rest =>
    match seen.step previous kind with
    | .error violation => .error violation
    | .ok seen => seen.run kind rest

/-- The rules accept kinds after a previous one. -/
def Accepts (seen : Seen) (previous : Kind) (kinds : List Kind) : Prop :=
  ∃ after, seen.run previous kinds = .ok after

theorem run_append (seen : Seen) (previous : Kind) (first second : List Kind) :
    seen.run previous (first ++ second) =
      match seen.run previous first with
      | .error violation => .error violation
      | .ok after => after.run (first.getLastD previous) second := by
  induction first generalizing seen previous with
  | nil => simp [run]
  | cons kind rest ih =>
    simp only [List.cons_append, run]
    cases seen.step previous kind with
    | error violation => rfl
    | ok after => simp only [ih, List.getLastD_cons]

theorem run_append_eq_ok {seen after : Seen} {previous : Kind} {first second : List Kind} :
    seen.run previous (first ++ second) = .ok after ↔
      ∃ middle, seen.run previous first = .ok middle ∧
        middle.run (first.getLastD previous) second = .ok after := by
  rw [run_append]
  cases seen.run previous first <;> simp

theorem run_cons_eq_ok {seen after : Seen} {previous kind : Kind} {rest : List Kind} :
    seen.run previous (kind :: rest) = .ok after ↔
      ∃ middle, seen.step previous kind = .ok middle ∧ middle.run kind rest = .ok after := by
  cases stepped : seen.step previous kind <;> simp [run, stepped]

theorem accepts_append (seen : Seen) (previous : Kind) (first second : List Kind) :
    seen.Accepts previous (first ++ second) ↔
      ∃ after, seen.run previous first = .ok after ∧
        after.Accepts (first.getLastD previous) second := by
  simp only [Accepts, run_append_eq_ok]
  exact exists_comm.trans (by simp)

theorem accepts_cons (seen : Seen) (previous kind : Kind) (rest : List Kind) :
    seen.Accepts previous (kind :: rest) ↔
      ∃ after, seen.step previous kind = .ok after ∧ after.Accepts kind rest := by
  simp only [Accepts, run_cons_eq_ok]
  exact exists_comm.trans (by simp)

theorem accepts_nil (seen : Seen) (previous : Kind) : seen.Accepts previous [] := ⟨seen, rfl⟩

/-- What has been seen once a kind is accepted. -/
def next (seen : Seen) : Kind → Seen
  | .plus | .minus => { seen with hasVariable := false }
  | .relation _ => ⟨false, true⟩
  | .name => { seen with hasVariable := true }
  | .comma => nothing
  | _ => seen

/-- An accepted kind changes what has been seen in one way, whatever stands before it. -/
theorem eq_next_of_step {seen after : Seen} {previous kind : Kind}
    (stepped : seen.step previous kind = .ok after) : after = seen.next kind := by
  cases kind <;>
    simp only [step, atEnd, atSign, atTimes, atRelation, atName, atComma] at stepped
  case startOfInput | coefficient => cases stepped; rfl
  -- Every rule refuses in all branches but its last.
  all_goals
    repeat' split at stepped
    all_goals first
      | cases stepped; rfl
      | cases stepped

theorem unseen_of_name {seen after : Seen} {previous : Kind}
    (stepped : seen.step previous .name = .ok after) : seen.hasVariable = false := by
  simp only [step, atName] at stepped
  split at stepped
  · cases stepped
  next unseen => simpa using unseen

theorem unseen_of_relation {seen after : Seen} {previous : Kind} {relation : Relation}
    (stepped : seen.step previous (.relation relation) = .ok after) :
    seen.hasRelation = false := by
  simp only [step, atRelation] at stepped
  split at stepped
  · cases stepped
  next unseen => simpa using unseen

/-- A comma or the end of the source closes an equation, which has its relational operator. -/
theorem hasRelation_of_close {seen after : Seen} {previous kind : Kind}
    (closes : kind = .comma ∨ kind = .endOfInput ∧ previous ≠ .startOfInput)
    (stepped : seen.step previous kind = .ok after) : seen.hasRelation = true := by
  rcases closes with rfl | ⟨rfl, started⟩
  · simp only [step, atComma] at stepped
    split at stepped
    · cases stepped
    · split at stepped
      · cases stepped
      · split at stepped
        · cases stepped
        next related => simpa using related
  · simp only [step, atEnd] at stepped
    split at stepped
    · cases stepped
    · split at stepped
      · cases stepped
      next related => simpa [started] using related

theorem hasRelation_of_step {seen after : Seen} {previous kind : Kind}
    (onSide : kind.isOnSide = true) (stepped : seen.step previous kind = .ok after) :
    after.hasRelation = seen.hasRelation := by
  rw [eq_next_of_step stepped]
  cases kind <;> first | rfl | cases onSide

theorem hasRelation_of_run {seen after : Seen} {previous : Kind} {side : List Kind}
    (onSide : ∀ kind ∈ side, kind.isOnSide = true) (ran : seen.run previous side = .ok after) :
    after.hasRelation = seen.hasRelation := by
  induction side generalizing seen previous with
  | nil => cases ran; rfl
  | cons kind rest ih =>
    obtain ⟨here, later⟩ := List.forall_mem_cons.mp onSide
    obtain ⟨middle, stepped, ran⟩ := run_cons_eq_ok.mp ran
    exact (ih later ran).trans (hasRelation_of_step here stepped)

end Seen

/-! ### Sides -/

/-- On a side the rules accept kinds that are apart and give no term a second variable. -/
theorem accepts_side {seen : Seen} {previous : Kind} {side : List Kind}
    (onSide : ∀ kind ∈ side, kind.isOnSide = true) :
    seen.Accepts previous side ↔ (previous :: side).IsChain Apart ∧
      SingleVariables (pending seen.hasVariable ++ side) := by
  -- The flag stands for the part of the current term that was read already, so the induction is
  -- over what is left, with any flag and any previous kind.
  induction side generalizing seen previous with
  | nil => simpa [singleVariables_pending] using seen.accepts_nil previous
  | cons kind rest ih =>
    obtain ⟨kindOnSide, restOnSide⟩ := List.forall_mem_cons.mp onSide
    rw [Seen.accepts_cons, List.isChain_cons_cons]
    cases kind with
    | startOfInput | endOfInput | relation | comma => cases kindOnSide
    | plus | minus =>
      rw [singleVariables_sign rfl, apart_sign rfl]
      simp only [Seen.step, Seen.atSign]
      cases previous.isSign
      · simp [ih restOnSide, pending]
      · simp
    | times =>
      rw [singleVariables_factor rfl (by decide), apart_times]
      simp only [Seen.step, Seen.atTimes]
      by_cases product : previous = .times
      · simp [product]
      · simp [product, ih restOnSide]
    | coefficient =>
      have apart : Apart previous .coefficient := apart_other rfl (by decide)
      rw [singleVariables_factor rfl (by decide)]
      simp [Seen.step, ih restOnSide, apart]
    | name =>
      have apart : Apart previous .name := apart_other rfl (by decide)
      rw [singleVariables_name]
      simp only [Seen.step, Seen.atName]
      cases seen.hasVariable
      · simp [ih restOnSide, apart]
      · simp

/-- After a kind that goes with every other, a side is what the rules accept if it is not empty and
its last kind is no sign. -/
theorem isSide_iff (seen : Seen) {previous : Kind} {side : List Kind}
    (onSide : ∀ kind ∈ side, kind.isOnSide = true) (fresh : seen.hasVariable = false)
    (neutral : ∀ kind, Apart previous kind) :
    IsSide side ↔ side ≠ [] ∧ (side.getLastD previous).isSign = false ∧
      seen.Accepts previous side := by
  -- No kind clashes with the previous one, and no variable was seen before the side.
  rw [accepts_side onSide, List.isChain_cons, fresh]
  constructor
  · rintro ⟨-, nonempty, closed, apart, single⟩
    refine ⟨nonempty, ?_, ⟨fun kind _ => neutral kind, apart⟩, by simpa [pending] using single⟩
    obtain ⟨front, last, rfl⟩ := List.eq_nil_or_concat side |>.resolve_left nonempty
    simpa using closed last (by simp)
  · rintro ⟨nonempty, closed, ⟨-, apart⟩, single⟩
    refine ⟨onSide, nonempty, ?_, apart, by simpa [pending] using single⟩
    intro last ends
    rw [List.getLastD_eq_getLast?, ends] at closed
    exact closed

/-! ### Equations -/

theorem getLastD_append_cons (first rest : List Kind) (previous kind : Kind) :
    (first ++ kind :: rest).getLastD previous = rest.getLastD kind := by
  simp [List.getLastD_eq_getLast?, List.getLast?_cons]

/-- What a comma or the end of the source asks of an equation that something was read of. -/
def Finished (seen : Seen) (last : Kind) : Prop :=
  seen.hasRelation = true ∧ last.isSign = false ∧ last.isRelation = false

theorem not_accepts_relation {seen : Seen} {previous : Kind} {side rest : List Kind}
    {relation : Relation} (onSide : ∀ kind ∈ side, kind.isOnSide = true)
    (related : seen.hasRelation = true) :
    ¬seen.Accepts previous (side ++ .relation relation :: rest) := by
  rw [Seen.accepts_append]
  rintro ⟨after, ran, accepted⟩
  rw [Seen.accepts_cons] at accepted
  obtain ⟨further, stepped, -⟩ := accepted
  have stillRelated := (Seen.hasRelation_of_run onSide ran).trans related
  simp [Seen.step, Seen.atRelation, stillRelated] at stepped

theorem run_right_iff {right : List Kind} (relation : Relation)
    (within : ∀ kind ∈ right, kind.isInEquation = true) :
    (∃ after, Seen.run ⟨false, true⟩ (.relation relation) right = .ok after ∧
      Finished after (right.getLastD (.relation relation))) ↔ IsSide right := by
  have neutral (kind : Kind) : Apart (.relation relation) kind := by
    have noSign : Kind.isSign (.relation relation) = false := rfl
    simp [Apart, noSign]
  rcases exists_first_relation within with onSide | ⟨side, other, rest, rfl, onSide⟩
  · rw [isSide_iff ⟨false, true⟩ onSide rfl neutral]
    constructor
    · rintro ⟨after, ran, -, noSign, noRelation⟩
      refine ⟨?_, noSign, after, ran⟩
      rintro rfl
      simp [Kind.isRelation, Kind.relation?] at noRelation
    · rintro ⟨nonempty, noSign, after, ran⟩
      refine ⟨after, ran, Seen.hasRelation_of_run onSide ran, noSign, ?_⟩
      obtain ⟨front, last, rfl⟩ := List.eq_nil_or_concat right |>.resolve_left nonempty
      simpa using Kind.isRelation_eq_false (onSide last (by simp))
  · -- A second relational operator is refused, and no right side has one.
    constructor
    · rintro ⟨after, ran, -⟩
      exact absurd ⟨after, ran⟩ (not_accepts_relation onSide rfl)
    · intro isSide
      have := isSide.onSide (.relation other) (by simp)
      cases this

theorem step_relation_eq_ok {seen after : Seen} {start : Kind} {left : List Kind}
    (relation : Relation) (starts : start = .startOfInput ∨ start = .comma)
    (onSide : ∀ kind ∈ left, kind.isOnSide = true) (unrelated : seen.hasRelation = false) :
    seen.step (left.getLastD start) (.relation relation) = .ok after ↔
      left ≠ [] ∧ (left.getLastD start).isSign = false ∧ after = ⟨false, true⟩ := by
  rcases List.eq_nil_or_concat left with rfl | ⟨front, last, rfl⟩
  · rcases starts with rfl | rfl <;> simp [Seen.step, Seen.atRelation, unrelated, Kind.isSign]
  · have lastOnSide := onSide last (by simp)
    have inside : last ≠ .startOfInput ∧ last ≠ .comma := by
      constructor <;> rintro rfl <;> cases lastOnSide
    cases sign : last.isSign <;>
      simp [Seen.step, Seen.atRelation, unrelated, sign, inside, @eq_comm _ after]

/-- Where an equation can start the rules recognize it. -/
theorem run_equation_iff {start : Kind} {kinds : List Kind}
    (starts : start = .startOfInput ∨ start = .comma)
    (within : ∀ kind ∈ kinds, kind.isInEquation = true) :
    (∃ after, Seen.nothing.run start kinds = .ok after ∧
      Finished after (kinds.getLastD start)) ↔ IsEquation kinds := by
  have neutral (kind : Kind) : Apart start kind := by
    rcases starts with rfl | rfl <;> simp [Apart, Kind.isSign]
  rcases exists_first_relation within with onSide | ⟨left, relation, right, rfl, onSide⟩
  · -- Without a relational operator nothing is finished.
    constructor
    · rintro ⟨after, ran, related, -⟩
      rw [Seen.hasRelation_of_run onSide ran] at related
      cases related
    · rintro ⟨left, relation, right, rfl, -⟩
      have := onSide (.relation relation) (by simp)
      cases this
  · have rightWithin : ∀ kind ∈ right, kind.isInEquation = true :=
      fun kind member => within kind (by simp [member])
    rw [isEquation_iff onSide, isSide_iff .nothing onSide rfl neutral,
      ← run_right_iff relation rightWithin, getLastD_append_cons]
    -- The operator forgets the left side but for the flag, so both sides start afresh.
    constructor
    · rintro ⟨after, ran, finished⟩
      obtain ⟨middle, leftRan, ran⟩ := Seen.run_append_eq_ok.mp ran
      obtain ⟨further, stepped, ran⟩ := Seen.run_cons_eq_ok.mp ran
      obtain ⟨nonempty, noSign, rfl⟩ :=
        (step_relation_eq_ok relation starts onSide
          (Seen.hasRelation_of_run onSide leftRan)).mp stepped
      exact ⟨⟨nonempty, noSign, middle, leftRan⟩, after, ran, finished⟩
    · rintro ⟨⟨nonempty, noSign, middle, leftRan⟩, after, ran, finished⟩
      have stepped :=
        (step_relation_eq_ok relation starts onSide
          (Seen.hasRelation_of_run onSide leftRan)).mpr ⟨nonempty, noSign, rfl⟩
      exact ⟨after, Seen.run_append_eq_ok.mpr
        ⟨middle, leftRan, Seen.run_cons_eq_ok.mpr ⟨_, stepped, ran⟩⟩, finished⟩

/-! ### Lists of equations -/

theorem isInEquation_getLastD {kinds : List Kind} (start : Kind) (nonempty : kinds ≠ [])
    (within : ∀ kind ∈ kinds, kind.isInEquation = true) :
    (kinds.getLastD start).isInEquation = true := by
  obtain ⟨front, last, rfl⟩ := List.eq_nil_or_concat kinds |>.resolve_left nonempty
  simpa using within last (by simp)

theorem step_comma_eq_ok {seen after : Seen} {last : Kind} (within : last.isInEquation = true) :
    seen.step last .comma = .ok after ↔ Finished seen last ∧ after = .nothing := by
  have inside : last ≠ .startOfInput ∧ last ≠ .comma := by
    constructor <;> rintro rfl <;> cases within
  cases related : seen.hasRelation <;> cases sign : last.isSign <;>
    cases relation : last.isRelation <;>
    simp [Seen.step, Seen.atComma, Finished, inside, related, sign, relation, @eq_comm _ after]

theorem accepts_end {seen : Seen} {last : Kind} (within : last.isInEquation = true) :
    seen.Accepts last [.endOfInput] ↔ Finished seen last := by
  have inside : last ≠ .startOfInput ∧ last ≠ .comma := by
    constructor <;> rintro rfl <;> cases within
  rw [Seen.accepts_cons]
  cases related : seen.hasRelation <;> cases sign : last.isSign <;>
    cases relation : last.isRelation <;>
    simp [Seen.step, Seen.atEnd, Finished, inside, related, sign, relation, Seen.accepts_nil]

/-- The rules take an equation and its comma as one, and what has been seen of it is forgotten. -/
theorem accepts_equation_comma {start : Kind} {equation rest : List Kind}
    (starts : start = .startOfInput ∨ start = .comma)
    (within : ∀ kind ∈ equation, kind.isInEquation = true) :
    Seen.nothing.Accepts start (equation ++ .comma :: rest) ↔
      IsEquation equation ∧ Seen.nothing.Accepts .comma rest := by
  by_cases empty : equation = []
  · subst empty
    -- An equation with nothing in it is refused at its comma.
    have refused : ¬Seen.nothing.Accepts start (.comma :: rest) := by
      rw [Seen.accepts_cons]
      rcases starts with rfl | rfl <;> simp [Seen.step, Seen.atComma]
    simp [refused, not_isEquation_nil]
  · have lastWithin := isInEquation_getLastD start empty within
    rw [Seen.accepts_append, ← run_equation_iff starts within]
    simp only [Seen.accepts_cons, step_comma_eq_ok lastWithin]
    constructor
    · rintro ⟨after, ran, further, ⟨finished, rfl⟩, accepted⟩
      exact ⟨⟨after, ran, finished⟩, accepted⟩
    · rintro ⟨⟨after, ran, finished⟩, accepted⟩
      exact ⟨after, ran, .nothing, ⟨finished, rfl⟩, accepted⟩

/-- Before the end of the source stands an equation, or nothing if nothing stands at all. -/
theorem accepts_equation_end {start : Kind} {equation : List Kind}
    (starts : start = .startOfInput ∨ start = .comma)
    (within : ∀ kind ∈ equation, kind.isInEquation = true) :
    Seen.nothing.Accepts start (equation ++ [.endOfInput]) ↔
      (start = .startOfInput ∧ equation = []) ∨ IsEquation equation := by
  by_cases empty : equation = []
  · subst empty
    rw [List.nil_append, Seen.accepts_cons]
    rcases starts with rfl | rfl <;>
      simp [Seen.step, Seen.atEnd, Seen.accepts_nil, not_isEquation_nil, Kind.isSign,
        Kind.isRelation, Kind.relation?]
  · have lastWithin := isInEquation_getLastD start empty within
    rw [Seen.accepts_append, ← run_equation_iff starts within]
    simp only [accepts_end lastWithin, empty, and_false, false_or]

theorem accepts_equations (start : Kind) {equations : List (List Kind)}
    (starts : start = .startOfInput ∨ start = .comma) (nonempty : equations ≠ [])
    (within : ∀ equation ∈ equations, ∀ kind ∈ equation, kind.isInEquation = true) :
    Seen.nothing.Accepts start ([Kind.comma].intercalate equations ++ [.endOfInput]) ↔
      (start = .startOfInput ∧ equations = [[]]) ∨ ∀ equation ∈ equations, IsEquation equation := by
  -- Each equation but the last is taken with its comma, after which the rest starts anew.
  induction equations generalizing start with
  | nil => exact absurd rfl nonempty
  | cons equation rest ih =>
    obtain ⟨here, others⟩ := List.forall_mem_cons.mp within
    cases rest with
    | nil => simpa using accepts_equation_end starts here
    | cons next rest =>
      have later := ih .comma (.inr rfl) (by simp) others
      rw [List.intercalate_cons_cons, List.append_assoc, List.append_assoc, List.singleton_append,
        accepts_equation_comma starts here, later]
      simp

/-- From the start of the source to its end, the rules accept the lists of equations. -/
theorem accepts_iff {kinds : List Kind}
    (inner : ∀ kind ∈ kinds, kind ≠ .startOfInput ∧ kind ≠ .endOfInput) :
    Seen.nothing.Accepts .startOfInput (kinds ++ [.endOfInput]) ↔ IsEquationList kinds := by
  -- A text is its parts with commas between, and its parts have neither commas nor ends.
  have whole : [Kind.comma].intercalate (kinds.splitOn .comma) = kinds := List.intercalate_splitOn _
  have within : ∀ equation ∈ kinds.splitOn .comma, ∀ kind ∈ equation,
      kind.isInEquation = true := by
    intro equation among kind member
    rw [List.splitOn_eq_splitOnP] at among
    obtain ⟨present, noComma⟩ := mem_of_mem_splitOnP among member
    obtain ⟨noStart, noEnd⟩ := inner kind present
    cases kind <;> first | rfl | contradiction
  have single : kinds.splitOn .comma = [[]] ↔ kinds = [] := by
    constructor
    · intro single
      rw [single] at whole
      exact whole.symm
    · rintro rfl
      rfl
  have recognized := accepts_equations .startOfInput (.inl rfl)
    (List.splitOn_ne_nil _ _) within
  rw [whole, single] at recognized
  simpa [IsEquationList] using recognized

end LinearSystem.Grammar
