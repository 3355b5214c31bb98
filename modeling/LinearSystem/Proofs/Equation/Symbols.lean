import LinearSystem.Proofs.Equation.Agreement
/-!
Equations have no variables of their own.

Builders take pieces in any order. Whatever they take, the variables of their equations are among
those that the pieces name (`Builder.forall_variables`).
-/
namespace LinearSystem

variable {α : Type} {holds : Symbol → Prop}

/-- A condition that every variable of a form meets. -/
def LinearForm.Each (holds : Symbol → Prop) (form : LinearForm α) : Prop :=
  ∀ term ∈ form.terms, holds term.1

theorem LinearForm.each_empty : (empty : LinearForm α).Each holds := List.forall_mem_nil _

variable [OfNat α 0] [Add α]

theorem LinearForm.Each.add {form : LinearForm α} (each : form.Each holds) {symbol : Symbol}
    (known : holds symbol) (value : α) : (form.add symbol value).Each holds := by
  intro term member
  have among : term.1 ∈ (form.add symbol value).terms.map Prod.fst := List.mem_map_of_mem member
  rw [LinearForm.add, LinearForm.map_fst_alter] at among
  have origin : term.1 ∈ form.terms.map Prod.fst ∨ term.1 = symbol := by
    split at among
    · exact .inl among
    · simpa using among
  rcases origin with old | new
  · obtain ⟨earlier, listed, same⟩ := List.mem_map.mp old
    exact same ▸ each earlier listed
  · exact new ▸ known

namespace Builder

/-- A condition that every variable of a builder meets, that of the open term included. -/
structure Each (holds : Symbol → Prop) (builder : Builder α) : Prop where
  form : builder.form.Each holds
  symbol : ∀ symbol, builder.symbol = some symbol → holds symbol

variable {builder : Builder α}

omit [OfNat α 0] [Add α] in
theorem Each.mono {weaker : Symbol → Prop} (each : Each holds builder)
    (imp : ∀ symbol, holds symbol → weaker symbol) : Each weaker builder :=
  ⟨fun term listed => imp _ (each.form term listed),
    fun symbol opened => imp _ (each.symbol symbol opened)⟩

omit [Add α] in
theorem each_fresh (atStart : Bool) : Each holds (fresh atStart : Builder α) :=
  ⟨LinearForm.each_empty, by rintro _ ⟨⟩⟩

variable [Sub α] [Neg α] [BEq α]

theorem Each.closeTerm (each : Each holds builder) : Each holds builder.closeTerm := by
  unfold Builder.closeTerm
  split
  · exact each
  · split
    · exact each
    · dsimp only
      split
      next symbol opened => exact ⟨each.form.add (each.symbol symbol opened) _, each.symbol⟩
      · exact ⟨each.form, each.symbol⟩

theorem Each.openTerm (each : Each holds builder) (coefficient : Option α) :
    Each holds (builder.openTerm coefficient) :=
  ⟨each.closeTerm.form, by rintro _ ⟨⟩⟩

theorem Each.finish (each : Each holds builder) :
    ∀ equation, builder.finish = some equation → equation.form.Each holds := by
  intro equation finished
  obtain ⟨relation, -, rfl⟩ := Option.map_eq_some_iff.mp finished
  exact each.closeTerm.form

variable [OfNat α 1] [Mul α]

theorem Each.step (each : Each holds builder) (piece : Piece α)
    (known : ∀ symbol, piece = .name symbol → holds symbol) :
    Each holds (builder.step piece).1 := by
  have later : Each holds { builder with atStart := false } := ⟨each.form, each.symbol⟩
  cases piece with
  | startOfInput => exact ⟨each.form, each.symbol⟩
  | endOfInput =>
    simp only [Builder.step]
    split
    · exact later
    · exact each_fresh false
  | plus | minus => exact later.openTerm _
  | times => exact later
  | relation relation =>
    exact ⟨(later.openTerm none).form, (later.openTerm none).symbol⟩
  | coefficient value =>
    cases value with
    | none => exact later
    | some number => exact ⟨each.form, each.symbol⟩
  | name symbol => exact ⟨each.form, by rintro _ ⟨⟩; exact known symbol rfl⟩
  | comma =>
    rw [step_comma]
    exact each_fresh false

/-- What a step answers are variables that were taken before. -/
theorem Each.answer (each : Each holds builder) (piece : Piece α) :
    ∀ equation, (builder.step piece).2.equation? = some equation → equation.form.Each holds := by
  intro equation answered
  rw [equation?_step] at answered
  split at answered
  · exact each.finish equation answered
  · split at answered
    · cases answered
    · exact each.finish equation answered
  · cases answered

/-- A condition that the named variables meet is met by those of all equations. -/
theorem forall_variables (each : Each holds builder) {pieces : List (Piece α)}
    (known : ∀ symbol, .name symbol ∈ pieces → holds symbol) :
    ∀ equation ∈ builder.equations pieces, equation.form.Each holds := by
  induction pieces generalizing builder with
  | nil => exact List.forall_mem_nil _
  | cons piece rest ih =>
    have next := each.step piece fun symbol named => known symbol (named ▸ List.mem_cons_self)
    have answer := each.answer piece
    have others := ih next fun symbol named => known symbol (List.mem_cons_of_mem piece named)
    rw [equations]
    split
    next stepped =>
      rw [stepped] at others
      exact others
    next stepped =>
      rw [stepped] at others answer
      exact List.forall_mem_cons.mpr ⟨answer _ rfl, others⟩
    · exact List.forall_mem_nil _

end Builder

end LinearSystem
