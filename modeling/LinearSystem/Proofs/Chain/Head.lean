import LinearSystem.Proofs.Chain.Walk
import LinearSystem.Source
/-!
Chains that do not begin with the start of the source.

No such chain is accepted, since what is accepted is integral. What it is refused for depends on one
link. As long as the first token is not the successor of the token that it names as its predecessor,
it does not hold together, and the refusal is a fault of the chain at that token
(`check_of_not_hasStart`). Where that link exists, the links close a ring: the rules are asked about
the first token as if the source went on there, and may blame the source for what they find
(`comma_ring_blames_source`).
-/
namespace LinearSystem

open Grammar

namespace Chain

/-- The chain begins with the start of the source, and that names no predecessor. -/
def HasStart (chain : Chain) : Prop :=
  ∃ first, chain.head? = some first ∧ first.kind = .startOfInput ∧ first.prev = none

/-- The first token is the successor of the token that it names as its predecessor. -/
def ClosesRing (chain : Chain) : Prop :=
  ∃ first last, chain.head? = some first ∧ chain.prev? first = some last ∧ last.next = some 0

/-- The place that is blamed where nothing but the first token is looked at. -/
def headLocation (chain : Chain) : Location :=
  match chain.head? with
  | none => ⟨1, 1⟩
  | some first => first.location

theorem Integral.hasStart {chain : Chain} (integral : chain.Integral) : chain.HasStart := by
  obtain ⟨first, stored⟩ := exists_get? integral.1
  obtain ⟨-, prev, -, starts, -⟩ := integral.placed stored
  exact ⟨first, stored, starts.mpr rfl, prev⟩

/-- A first token that holds together starts the source or closes a ring. -/
theorem hasStart_or_closesRing {chain : Chain} {first : Token} (headed : chain.head? = some first)
    (index : first.index = 0) (together : chain.holdsTogetherAt first = true) :
    chain.HasStart ∨ chain.ClosesRing := by
  obtain ⟨-, back, -⟩ := holdsTogetherAt_iff.mp together
  cases named : first.prev with
  | none => exact .inl ⟨first, headed, by simpa [linkedBack, named] using back, named⟩
  | some origin =>
    simp only [linkedBack, named, Bool.and_eq_true, Option.any_eq_true, decide_eq_true_eq,
      index] at back
    obtain ⟨-, last, stored, returns⟩ := back
    exact .inr ⟨first, last, headed, stored, returns⟩

/-- A first token that does not hold together is refused before any rule is asked. -/
theorem check_of_head {chain : Chain} {first : Token} (headed : chain.head? = some first)
    (broken : first.index = 0 → chain.holdsTogetherAt first = false) :
    chain.check = .error (.integrity first.location) := by
  obtain ⟨tokens, size⟩ : ∃ tokens, chain.size = tokens + 1 :=
    Nat.exists_eq_add_one.mpr (lt_size_of_get? headed)
  unfold check
  rw [headed, size]
  dsimp only
  unfold checkFrom
  by_cases index : first.index = 0
  · simp [index, checkToken, broken index]
  · simp [index]

/-- A chain without its start is never accepted, and unless its first token closes a ring, it is
refused as a fault of the chain at that token. -/
theorem check_of_not_hasStart {tokens : List Token} (headless : ¬(ofList tokens).HasStart) :
    (ofList tokens).check ≠ .ok () ∧
    (¬(ofList tokens).ClosesRing →
      (ofList tokens).check = .error (.integrity (ofList tokens).headLocation)) := by
  constructor
  · intro accepted
    exact headless (integral_of_check accepted).hasStart
  · intro noRing
    cases headed : (ofList tokens).head? with
    | none => simp [check, headLocation, headed]
    | some first =>
      -- A first token that held together would start the source or close a ring.
      have broken : first.index = 0 → (ofList tokens).holdsTogetherAt first = false := by
        intro index
        apply Bool.eq_false_iff.mpr
        intro together
        rcases hasStart_or_closesRing headed index together with starts | ring
        · exact headless starts
        · exact noRing ring
      rw [check_of_head headed broken, headLocation, headed]

/-- A chain whose start was cut off: its first token names no predecessor. -/
theorem check_beheaded :
    let tokens : List Token :=
      [⟨.name, "x", 0, 1, ⟨1, 1⟩, 0, none, some 1⟩,
        ⟨.endOfInput, "", 1, 1, ⟨1, 2⟩, 1, some 0, none⟩]
    ¬(ofList tokens).HasStart ∧ ¬(ofList tokens).ClosesRing ∧
      (ofList tokens).check = .error (.integrity ⟨1, 1⟩) := by
  intro tokens
  have headless : ¬(ofList tokens).HasStart := by
    rintro ⟨first, headed, starts, -⟩
    cases headed
    cases starts
  have noRing : ¬(ofList tokens).ClosesRing := by
    rintro ⟨first, last, headed, named, -⟩
    cases headed
    cases named
  exact ⟨headless, noRing, (check_of_not_hasStart headless).2 noRing⟩

/-- A comma that is linked to itself on both sides has no start before it, yet the rules see a comma
after a comma and the source is blamed. -/
theorem comma_ring_blames_source :
    let comma : Token := ⟨.comma, ",", 0, 1, ⟨1, 1⟩, 0, some 0, some 0⟩
    ¬(ofList [comma]).HasStart ∧
      (ofList [comma]).check = .error (.grammar .equationMissing comma) ∧
      ((CheckError.grammar .equationMissing comma).diagnostic ",").blamesInput = true := by
  intro comma
  refine ⟨?_, rfl, rfl⟩
  rintro ⟨first, headed, starts, -⟩
  cases headed
  cases starts

end Chain

end LinearSystem
