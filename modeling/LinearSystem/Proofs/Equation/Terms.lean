import LinearSystem.Proofs.Equation.Source
/-!
Terms in which nothing is written.

The rules for signs and products look at neighbours only. Together they leave one kind of term
without a coefficient and a variable: a product sign that stands alone
(`Chain.not_hasFactor_iff_of_check`). Such a term is accepted, and after a plus it counts as the
number one (`Source.lone_product_counts`).
-/
namespace LinearSystem

open Grammar

namespace Items

/-! ### Runs between signs -/

/-- A run between two signs is a part of its side, and no sign stands in it. -/
theorem runs_within (side : Items) :
    ((runs side).1 <+: side ∧ ∀ item ∈ (runs side).1, item.1.isSign = false) ∧
      ∀ term ∈ (runs side).2, term.2 <:+: side ∧ ∀ item ∈ term.2, item.1.isSign = false := by
  induction side with
  | nil => simp [runs]
  | cons item rest ih =>
    obtain ⟨kind, text⟩ := item
    obtain ⟨⟨front, plain⟩, others⟩ := ih
    have further {run : Items} (part : run <:+: rest) : run <:+: (kind, text) :: rest :=
      part.trans (List.suffix_cons _ _).isInfix
    cases sign : kind.isSign with
    | true =>
      -- What follows the sign up to the next one is a run of its own.
      simp only [runs, sign, if_true]
      refine ⟨⟨List.nil_prefix, by simp⟩, ?_⟩
      rintro term (_ | ⟨_, among⟩)
      · exact ⟨further front.isInfix, plain⟩
      · exact ⟨further (others term among).1, (others term among).2⟩
    | false =>
      simp only [runs, sign, Bool.false_eq_true, if_false]
      refine ⟨⟨(List.prefix_cons_inj _).mpr front, ?_⟩, ?_⟩
      · exact List.forall_mem_cons.mpr ⟨sign, plain⟩
      · intro term among
        exact ⟨further (others term among).1, (others term among).2⟩

theorem ne_nil_of_runs {side : Items} (nonempty : side ≠ [])
    (noSign : ∀ item, side.head? = some item → item.1.isSign = false) : (runs side).1 ≠ [] := by
  cases side with
  | nil => exact absurd rfl nonempty
  | cons item rest => simp [runs, noSign item rfl]

/-- Every sign is followed by a run, where no two signs are neighbours and none stands last. -/
theorem ne_nil_of_mem_runs {side : Items} (apart : (side.map Prod.fst).IsChain Apart)
    (closed : ∀ kind, (side.map Prod.fst).getLast? = some kind → kind.isSign = false) :
    ∀ term ∈ (runs side).2, term.2 ≠ [] := by
  induction side with
  | nil => simp [runs]
  | cons item rest ih =>
    obtain ⟨kind, text⟩ := item
    rw [List.map_cons, List.isChain_cons] at apart
    obtain ⟨neighbours, restApart⟩ := apart
    have restClosed : ∀ last, (rest.map Prod.fst).getLast? = some last → last.isSign = false := by
      intro last ends
      apply closed last
      rw [List.map_cons, List.getLast?_cons, ends, Option.getD_some]
    have others := ih restApart restClosed
    cases sign : kind.isSign with
    | false => simpa [runs, sign] using others
    | true =>
      simp only [runs, sign, if_true]
      rintro term (_ | ⟨_, among⟩)
      · apply ne_nil_of_runs
        · -- A sign with nothing after it would end the side.
          rintro rfl
          have noSign := closed kind rfl
          rw [sign] at noSign
          cases noSign
        · intro next comes
          have apart := neighbours next.1 (by simp [comes])
          have unsigned := mt (And.intro sign) apart.1
          simpa using unsigned
      · exact others term among

/-- A term follows a sign, or it is what stands before the first of them. -/
theorem mem_terms {side : Items} (nonempty : side ≠ []) {term : Bool × Items}
    (among : term ∈ side.terms) :
    term ∈ (runs side).2 ∨ term.2 = (runs side).1 ∧ (runs side).1 ≠ [] := by
  unfold terms at among
  split at among
  next first others cut =>
    rw [cut]
    exact .inl among
  next run others isTerm cut =>
    rw [cut]
    rcases List.mem_cons.mp among with rfl | among
    · right
      refine ⟨rfl, ?_⟩
      rintro rfl
      -- Where nothing stands before a sign, and no sign, the side is empty.
      cases side with
      | nil => exact nonempty rfl
      | cons item rest =>
        cases sign : item.1.isSign with
        | true =>
          simp only [runs, sign, if_true, Prod.mk.injEq, true_and] at cut
          exact isTerm _ _ rfl cut.symm
        | false => simp [runs, sign] at cut
    · exact .inl among

/-! ### Terms of sides -/

/-- Without coefficients and variables only products are left of a run, and no two of them stand
side by side. -/
theorem eq_times_of_not_hasFactor {run : Items} (onSide : ∀ item ∈ run, item.1.isOnSide = true)
    (noSign : ∀ item ∈ run, item.1.isSign = false) (apart : (run.map Prod.fst).IsChain Apart)
    (nonempty : run ≠ []) (empty : ¬HasFactor run) : run.map Prod.fst = [.times] := by
  have times : ∀ item ∈ run, item.1 = .times := by
    intro item member
    have factor : ¬(item.1 = .coefficient ∨ item.1 = .name) :=
      fun isFactor => empty ⟨item, member, isFactor⟩
    have inside := onSide item member
    have plain := noSign item member
    revert factor inside plain
    cases item.1 <;> simp [Kind.isOnSide, Kind.isSign]
  cases run with
  | nil => exact absurd rfl nonempty
  | cons first rest =>
    cases rest with
    | nil => simp [times first (by simp)]
    | cons second rest =>
      rw [List.map_cons, List.map_cons, List.isChain_cons_cons] at apart
      exact absurd ⟨times first (by simp), times second (by simp)⟩ apart.1.2

theorem not_hasFactor_of_eq_times {run : Items} (alone : run.map Prod.fst = [.times]) :
    ¬HasFactor run := by
  rintro ⟨item, member, isFactor⟩
  have kind : item.1 ∈ run.map Prod.fst := List.mem_map_of_mem member
  rw [alone, List.mem_singleton] at kind
  simp [kind] at isFactor

/-- A term of a side has neither a coefficient nor a variable exactly if it is a product sign that
stands alone. -/
theorem not_hasFactor_iff_of_isSide {side : Items} (isSide : IsSide (side.map Prod.fst))
    {term : Bool × Items} (among : term ∈ side.terms) :
    ¬HasFactor term.2 ↔ term.2.map Prod.fst = [.times] := by
  obtain ⟨⟨front, plain⟩, others⟩ := runs_within side
  have notEmpty : side ≠ [] := by simpa using isSide.nonempty
  have run : term.2 <:+: side ∧ (∀ item ∈ term.2, item.1.isSign = false) ∧ term.2 ≠ [] := by
    rcases mem_terms notEmpty among with later | ⟨same, started⟩
    · have nonempty := ne_nil_of_mem_runs isSide.apart isSide.closed term later
      exact ⟨(others term later).1, (others term later).2, nonempty⟩
    · rw [same]
      exact ⟨front.isInfix, plain, started⟩
  -- The run is a part of the side, so what is asked of the side is asked of it.
  obtain ⟨part, noSign, nonempty⟩ := run
  have onSide : ∀ item ∈ term.2, item.1.isOnSide = true :=
    fun item member => isSide.onSide item.1 (List.mem_map_of_mem (part.subset member))
  have apart := isSide.apart.infix (part.map Prod.fst)
  exact ⟨eq_times_of_not_hasFactor onSide noSign apart nonempty, not_hasFactor_of_eq_times⟩

end Items

open Items

/-! ### Terms of chains -/

/-- On an accepted chain, whatever its tokens are, a term that has neither a coefficient nor a
variable is a product sign that stands alone. -/
theorem Chain.not_hasFactor_iff_of_check {chain : Chain} (accepted : chain.check = .ok ()) :
    ∀ part ∈ Items.relations chain.items.tail.dropLast,
      ∀ term ∈ part.left.terms ++ part.right.terms,
        ¬HasFactor term.2 ↔ term.2.map Prod.fst = [.times] := by
  intro part among term member
  have integral := integral_of_check accepted
  obtain ⟨-, -, -, kinds⟩ := Source.exists_inner integral
  have list : IsEquationList (chain.items.tail.dropLast.map Prod.fst) :=
    kinds ▸ integral.accepted_iff.mp accepted
  obtain ⟨-, -, -, -, leftSide, rightSide⟩ :=
    cut_of_isEquation (isEquation_of_mem_relations list among)
  rcases List.mem_append.mp member with left | right
  · exact not_hasFactor_iff_of_isSide leftSide left
  · exact not_hasFactor_iff_of_isSide rightSide right

namespace Source

/-- The terms of `2x = 4` have a coefficient or a variable each, so none of them is a product sign
by itself. -/
theorem terms_twoX : ∃ chain, Source.chain "2x = 4" = .ok chain ∧ chain.check = .ok () ∧
    ∀ part ∈ Items.relations chain.items.tail.dropLast,
      ∀ term ∈ part.left.terms ++ part.right.terms,
        ¬HasFactor term.2 ↔ term.2.map Prod.fst = [.times] := by
  have accepted := (chain_eq_ok.mp chain_twoX).2
  exact ⟨_, chain_twoX, accepted, Chain.not_hasFactor_iff_of_check accepted⟩

/-- In `x + * <= 1` nothing is written after the plus but a product sign. The chain is accepted, and
the term counts as a one, which takes the bound to zero. -/
theorem lone_product_counts : ∃ chain, Source.chain "x + * <= 1" = .ok chain ∧
    chain.check = .ok () ∧
    (∃ part ∈ Items.relations chain.items.tail.dropLast,
      ∃ term ∈ part.left.terms ++ part.right.terms, ¬HasFactor term.2) ∧
    (chain.equations Numeral.readRat? .empty).1.map Equation.bound = [0] := by
  cases lexed : Source.chain "x + * <= 1" with
  | error diagnostic =>
    have read : (Source.chain "x + * <= 1").toOption.isSome := by decide +kernel
    simp [lexed, Except.toOption] at read
  | ok chain =>
    have items : chain.items = [(.startOfInput, ""), (.name, "x"), (.plus, "+"), (.times, "*"),
        (.relation .atMost, "<="), (.coefficient, "1"), (.endOfInput, "")] := by
      have read : (Source.chain "x + * <= 1").toOption.map Chain.items = some
          [(.startOfInput, ""), (.name, "x"), (.plus, "+"), (.times, "*"),
            (.relation .atMost, "<="), (.coefficient, "1"), (.endOfInput, "")] := by decide +kernel
      simpa [lexed, Except.toOption] using read
    refine ⟨chain, rfl, (chain_eq_ok.mp lexed).2, ?_, ?_⟩
    · rw [items]
      decide
    · rw [Chain.equations, items]
      decide +kernel

end Source

end LinearSystem
