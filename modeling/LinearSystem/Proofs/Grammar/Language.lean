import LinearSystem.Token.Basic
import Mathlib.Data.List.Chain
/-!
The language of equation lists.

The language is said of a whole text at once: what its sides, its equations and its commas are
(`IsSide`, `IsEquation`, `IsEquationList`). Nothing here knows in which order a text is read.
-/
namespace LinearSystem

/-! ### Lists that are cut -/

/-- What stands between two separators stands in the whole list and is no separator. -/
theorem mem_of_mem_splitOnP {α : Type} {separates : α → Bool} {list part : List α} {element : α}
    (among : part ∈ list.splitOnP separates) (member : element ∈ part) :
    element ∈ list ∧ separates element = false := by
  induction list generalizing part with
  | nil => simp_all
  | cons first rest ih =>
    obtain ⟨head, others, split⟩ :=
      List.exists_cons_of_ne_nil (List.splitOnP_ne_nil separates rest)
    rw [List.splitOnP_cons_eq_if_modifyHead, split] at among
    rw [split] at ih
    -- A separator opens a part of its own; any other element goes to the part that follows it.
    cases separator : separates first with
    | true =>
      simp only [separator, if_true, List.mem_cons] at among
      rcases among with rfl | among
      · cases member
      · have := ih (by simpa using among) member
        exact ⟨by simp [this], this.2⟩
    | false =>
      simp only [separator, Bool.false_eq_true, if_false, List.modifyHead_cons,
        List.mem_cons] at among
      rcases among with rfl | among
      · rcases List.mem_cons.mp member with rfl | member
        · exact ⟨by simp, separator⟩
        · have := ih (by simp) member
          exact ⟨by simp [this], this.2⟩
      · have := ih (by simp [among]) member
        exact ⟨by simp [this], this.2⟩

/-- A list is cut in the same places before and after its elements are replaced. -/
theorem splitOnP_map {α β : Type} (f : α → β) (separates : β → Bool) (list : List α) :
    (list.map f).splitOnP separates =
      (list.splitOnP fun element => separates (f element)).map (List.map f) := by
  induction list with
  | nil => rfl
  | cons first rest ih =>
    obtain ⟨head, others, split⟩ := List.exists_cons_of_ne_nil
      (List.splitOnP_ne_nil (fun element => separates (f element)) rest)
    rw [List.map_cons, List.splitOnP_cons_eq_if_modifyHead, ih,
      List.splitOnP_cons_eq_if_modifyHead, split]
    split <;> simp

namespace Kind

/-- The kinds that the sides of an equation are made of. -/
def isOnSide : Kind → Bool
  | plus | minus | times | coefficient | name => true
  | _ => false

/-- The kinds that equations are made of. -/
def isInEquation (kind : Kind) : Bool := kind.isOnSide || kind.isRelation

theorem isRelation_iff {kind : Kind} :
    kind.isRelation = true ↔ ∃ r, kind = .relation r := by
  cases kind <;> simp [isRelation, relation?]

theorem isRelation_eq_false {kind : Kind} (onSide : kind.isOnSide = true) :
    kind.isRelation = false := by
  cases kind <;> first | rfl | cases onSide

end Kind

namespace Grammar

/-! ### The language -/

/-- Two kinds may stand beside each other: they are not two signs and not two products. -/
def Apart (first second : Kind) : Prop :=
  ¬(first.isSign = true ∧ second.isSign = true) ∧ ¬(first = .times ∧ second = .times)

/-- No run between two signs has two variables. -/
def SingleVariables (side : List Kind) : Prop :=
  ∀ run ∈ side.splitOnP Kind.isSign, run.count .name ≤ 1

/-- One side of an equation: something is written on it, it does not end in a sign, no two signs
and no two products stand side by side, and no term has two variables. -/
structure IsSide (side : List Kind) : Prop where
  onSide : ∀ kind ∈ side, kind.isOnSide = true
  nonempty : side ≠ []
  closed : ∀ kind, side.getLast? = some kind → kind.isSign = false
  apart : side.IsChain Apart
  single : SingleVariables side

/-- Two sides with a relational operator between. -/
def IsEquation (kinds : List Kind) : Prop :=
  ∃ left relation right, kinds = left ++ .relation relation :: right ∧ IsSide left ∧ IsSide right

/-- Nothing at all, or equations with a comma between any two. -/
def IsEquationList (kinds : List Kind) : Prop :=
  kinds = [] ∨ ∀ equation ∈ kinds.splitOn .comma, IsEquation equation

/-! ### Sides, kind by kind -/

theorem apart_sign {previous sign : Kind} (isSign : sign.isSign = true) :
    Apart previous sign ↔ previous.isSign = false := by
  have noTimes : sign ≠ .times := by rintro rfl; cases isSign
  simp [Apart, isSign, noTimes]

theorem apart_times {previous : Kind} : Apart previous .times ↔ previous ≠ .times := by
  have noSign : Kind.isSign .times = false := rfl
  simp [Apart, noSign]

theorem apart_other {previous kind : Kind} (noSign : kind.isSign = false)
    (noTimes : kind ≠ .times) : Apart previous kind := by
  simp [Apart, noSign, noTimes]

/-- What has been seen of a term, as the start of that term. -/
def pending (hasVariable : Bool) : List Kind := if hasVariable then [.name] else []

theorem singleVariables_sign {sign : Kind} (isSign : sign.isSign = true) (hasVariable : Bool)
    (rest : List Kind) :
    SingleVariables (pending hasVariable ++ sign :: rest) ↔ SingleVariables rest := by
  have name : Kind.isSign .name = false := rfl
  cases hasVariable <;>
    simp [SingleVariables, pending, List.splitOnP_cons_eq_if_modifyHead, isSign, name]

theorem singleVariables_factor {kind : Kind} (noSign : kind.isSign = false)
    (noName : kind ≠ .name) (hasVariable : Bool) (rest : List Kind) :
    SingleVariables (pending hasVariable ++ kind :: rest) ↔
      SingleVariables (pending hasVariable ++ rest) := by
  have name : Kind.isSign .name = false := rfl
  obtain ⟨first, others, split⟩ :=
    List.exists_cons_of_ne_nil (List.splitOnP_ne_nil Kind.isSign rest)
  cases hasVariable <;>
    simp [SingleVariables, pending, List.splitOnP_cons_eq_if_modifyHead, noSign, name, split,
      noName]

theorem singleVariables_name (hasVariable : Bool) (rest : List Kind) :
    SingleVariables (pending hasVariable ++ .name :: rest) ↔
      hasVariable = false ∧ SingleVariables (pending true ++ rest) := by
  have name : Kind.isSign .name = false := rfl
  obtain ⟨first, others, split⟩ :=
    List.exists_cons_of_ne_nil (List.splitOnP_ne_nil Kind.isSign rest)
  cases hasVariable <;>
    simp [SingleVariables, pending, List.splitOnP_cons_eq_if_modifyHead, name, split]

theorem singleVariables_pending (hasVariable : Bool) : SingleVariables (pending hasVariable) := by
  have name : Kind.isSign .name = false := rfl
  cases hasVariable <;>
    simp [SingleVariables, pending, List.splitOnP_cons_eq_if_modifyHead, name]

/-! ### Equations -/

theorem not_isEquation_nil : ¬IsEquation [] := by
  rintro ⟨left, relation, right, same, -⟩
  simp at same

/-- Kinds of an equation stand on one side, or there is a first relational operator. -/
theorem exists_first_relation {kinds : List Kind}
    (within : ∀ kind ∈ kinds, kind.isInEquation = true) :
    (∀ kind ∈ kinds, kind.isOnSide = true) ∨
      ∃ left relation right, kinds = left ++ .relation relation :: right ∧
        ∀ kind ∈ left, kind.isOnSide = true := by
  induction kinds with
  | nil => left; simp
  | cons kind rest ih =>
    obtain ⟨here, later⟩ := List.forall_mem_cons.mp within
    by_cases onSide : kind.isOnSide = true
    · rcases ih later with all | ⟨left, relation, right, rfl, leftOnSide⟩
      · left
        exact List.forall_mem_cons.mpr ⟨onSide, all⟩
      · right
        exact ⟨kind :: left, relation, right, rfl, List.forall_mem_cons.mpr ⟨onSide, leftOnSide⟩⟩
    · right
      have isRelation : kind.isRelation = true := by simpa [Kind.isInEquation, onSide] using here
      obtain ⟨relation, rfl⟩ := Kind.isRelation_iff.mp isRelation
      exact ⟨[], relation, rest, rfl, by simp⟩

theorem first_relation_unique {left right left' right' : List Kind} {relation relation' : Relation}
    (leftOnSide : ∀ kind ∈ left, kind.isOnSide = true)
    (leftOnSide' : ∀ kind ∈ left', kind.isOnSide = true)
    (same : left ++ .relation relation :: right = left' ++ .relation relation' :: right') :
    left = left' ∧ relation = relation' ∧ right = right' := by
  induction left generalizing left' with
  | nil =>
    cases left' with
    | nil => simpa using same
    | cons kind rest =>
      -- The operator would have to stand on the other left side.
      have onSide := leftOnSide' kind (by simp)
      rw [← (List.cons.inj same).1] at onSide
      cases onSide
  | cons kind rest ih =>
    cases left' with
    | nil =>
      have onSide := leftOnSide kind (by simp)
      rw [(List.cons.inj same).1] at onSide
      cases onSide
    | cons kind' rest' =>
      obtain ⟨sameKind, sameRest⟩ := List.cons.inj same
      obtain ⟨-, later⟩ := List.forall_mem_cons.mp leftOnSide
      obtain ⟨-, later'⟩ := List.forall_mem_cons.mp leftOnSide'
      obtain ⟨rfl, rest⟩ := ih later later' sameRest
      exact ⟨by rw [sameKind], rest⟩

/-- An equation's sides are those beside its first relational operator. -/
theorem isEquation_iff {left right : List Kind} {relation : Relation}
    (leftOnSide : ∀ kind ∈ left, kind.isOnSide = true) :
    IsEquation (left ++ .relation relation :: right) ↔ IsSide left ∧ IsSide right := by
  constructor
  · rintro ⟨left', relation', right', same, leftSide, rightSide⟩
    obtain ⟨rfl, -, rfl⟩ := first_relation_unique leftOnSide leftSide.onSide same
    exact ⟨leftSide, rightSide⟩
  · rintro ⟨leftSide, rightSide⟩
    exact ⟨left, relation, right, rfl, leftSide, rightSide⟩

end Grammar

end LinearSystem
