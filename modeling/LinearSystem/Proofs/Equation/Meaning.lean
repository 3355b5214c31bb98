import LinearSystem.Proofs.Equation.Parts
import LinearSystem.Proofs.Equation.Written
import Mathlib.Tactic.Ring
import Mathlib.Tactic.Linarith
/-!
Building keeps the meaning.

Of a builder in the middle of an equation, `balance` is the difference of its closed terms and its
bound, and `openValue` what its open term is worth so far. Reading a side of an equation adds the
value that the side has as it is written to the balance, or takes it away after the relational
operator (`Builder.balance_after_side`); so the equation that comes out holds exactly if what is
written does (`Builder.exists_finish_of_part`).
-/
namespace LinearSystem

open Grammar

/-! ### Values of forms -/

namespace LinearForm

def eval (value : Symbol → ℚ) (form : LinearForm ℚ) : ℚ :=
  (form.terms.map fun term => term.2 * value term.1).sum

variable (value : Symbol → ℚ)

@[simp] theorem eval_empty : eval value empty = 0 := rfl

theorem sum_alter (symbol : Symbol) (added : ℚ) (terms : List (Symbol × ℚ)) :
    ((alter (fun old => old.getD 0 + added) symbol terms).map fun term =>
        term.2 * value term.1).sum =
      (terms.map fun term => term.2 * value term.1).sum + added * value symbol := by
  induction terms with
  | nil => simp [alter]
  | cons term rest ih =>
    obtain ⟨other, coefficient⟩ := term
    -- The coefficient of a symbol that is there already grows in its place.
    by_cases same : other = symbol
    · simp only [alter, same, if_true, List.map_cons, List.sum_cons, Option.getD_some]
      ring
    · simp only [alter, same, if_false, List.map_cons, List.sum_cons, ih]
      ring

/-- Like terms are merged without changing the value. -/
theorem eval_add (form : LinearForm ℚ) (symbol : Symbol) (added : ℚ) :
    (form.add symbol added).eval value = form.eval value + added * value symbol :=
  sum_alter value symbol added form.terms

end LinearForm

namespace Equation

/-- An equation is true of the names of a table. -/
def Holds (assignment : String → ℚ) (table : SymbolTable) (equation : Equation ℚ) : Prop :=
  equation.relation.Holds
    ((equation.namedTerms table).map fun term => term.2 * assignment term.1).sum equation.bound

theorem holds_iff (assignment : String → ℚ) (table : SymbolTable) (equation : Equation ℚ) :
    equation.Holds assignment table ↔ equation.relation.Holds
      (equation.form.eval fun symbol => assignment (table.nameOf symbol)) equation.bound := by
  simp [Holds, namedTerms, LinearForm.eval, Function.comp_def]

end Equation

/-- Moving both sides by the same amount changes no relation. -/
theorem Relation.holds_of_sub_eq {relation : Relation} {first second third fourth : ℚ}
    (same : first - second = third - fourth) :
    relation.Holds first second ↔ relation.Holds third fourth := by
  cases relation with
  | equal => constructor <;> intro holds <;> simp only [Holds] at holds ⊢ <;> linarith
  | atMost => constructor <;> intro holds <;> simp only [Holds] at holds ⊢ <;> linarith
  | atLeast => constructor <;> intro holds <;> simp only [Holds] at holds ⊢ <;> linarith

/-! ### Values of builders -/

namespace Builder

variable (value : Symbol → ℚ)

/-- The closed terms less the bound. -/
def balance (builder : Builder ℚ) : ℚ := builder.form.eval value - builder.bound

/-- What the open term is worth so far, without regard to its side. -/
def openValue (builder : Builder ℚ) : ℚ :=
  builder.coefficient.getD 1 * (builder.symbol.map value).getD 1

/-- The factor by which a side goes into the balance. -/
def direction (builder : Builder ℚ) : ℚ := if builder.relation.isSome then -1 else 1

/-- Closing a term brings its value into the balance, where it has one. -/
theorem balance_closeTerm (builder : Builder ℚ) :
    builder.closeTerm.balance value = builder.balance value + builder.direction *
      (if builder.coefficient.isSome then builder.openValue value else 0) := by
  unfold closeTerm
  cases coefficient : builder.coefficient with
  | none => simp
  | some number =>
    -- A term that is zero is dropped, which changes nothing.
    by_cases zero : number = 0
    · simp [zero, openValue, coefficient]
    · cases symbol : builder.symbol <;> cases relation : builder.relation <;>
        simp [zero, balance, openValue, direction, coefficient, symbol, relation,
          LinearForm.eval_add] <;> ring

theorem direction_openTerm (builder : Builder ℚ) (coefficient : Option ℚ) :
    (builder.openTerm coefficient).direction = builder.direction := by
  simp [direction, openTerm]

theorem balance_openTerm (builder : Builder ℚ) (coefficient : Option ℚ) :
    (builder.openTerm coefficient).balance value = builder.closeTerm.balance value := rfl

theorem openValue_openTerm (builder : Builder ℚ) (number : ℚ) :
    (builder.openTerm (some number)).openValue value = number := by
  simp [openValue, openTerm]

theorem openValue_multiply (builder : Builder ℚ) (number : ℚ) :
    (builder.multiply number).openValue value = builder.openValue value * number := by
  simp only [openValue, multiply, Option.getD_some]
  ring

theorem openValue_withSymbol {builder : Builder ℚ} (fresh : builder.symbol = none)
    (symbol : Symbol) :
    (builder.withSymbol symbol).openValue value = builder.openValue value * value symbol := by
  simp [openValue, withSymbol, fresh]

end Builder

/-! ### What is left of a side -/

namespace Items

instance (run : Items) : Decidable (HasFactor run) :=
  inferInstanceAs (Decidable (∃ item ∈ run, item.1 = .coefficient ∨ item.1 = .name))

theorem hasFactor_cons {item : Kind × String} {run : Items} :
    HasFactor (item :: run) ↔
      (item.1 = .coefficient ∨ item.1 = .name) ∨ HasFactor run :=
  List.exists_mem_cons_iff ..

variable (assignment : String → ℚ)

/-- What the rest of a side brings, the end of the open term first. The open term counts if it is
opened already or a factor is still to come. -/
def remaining (opened : Bool) (worth : ℚ) (side : Items) : ℚ :=
  (if opened = true ∨ HasFactor side.runs.1 then worth * product assignment side.runs.1 else 0) +
    (side.runs.2.map (termValue assignment)).sum

theorem remaining_nil (opened : Bool) (worth : ℚ) :
    remaining assignment opened worth [] = if opened then worth else 0 := by
  simp [remaining, runs, HasFactor, product]

theorem remaining_sign (opened : Bool) (worth : ℚ) {kind : Kind} (isSign : kind.isSign = true)
    (text : String) (rest : Items) :
    remaining assignment opened worth ((kind, text) :: rest) =
      (if opened then worth else 0) +
        remaining assignment true (if kind = .minus then -1 else 1) rest := by
  simp [remaining, runs, isSign, HasFactor, product, termValue]

theorem remaining_times (opened : Bool) (worth : ℚ) (text : String) (rest : Items) :
    remaining assignment opened worth ((.times, text) :: rest) =
      remaining assignment opened worth rest := by
  have noSign : Kind.isSign .times = false := rfl
  simp [remaining, runs, noSign, hasFactor_cons, product, factor]

theorem remaining_factor (opened : Bool) (worth : ℚ) {kind : Kind}
    (isFactor : kind = .coefficient ∨ kind = .name) (text : String) (rest : Items) :
    remaining assignment opened worth ((kind, text) :: rest) =
      remaining assignment true (worth * factor assignment (kind, text)) rest := by
  have noSign : kind.isSign = false := by rcases isFactor with rfl | rfl <;> rfl
  have hasFactor : HasFactor ((kind, text) :: (runs rest).1) := ⟨_, List.mem_cons_self, isFactor⟩
  simp [remaining, runs, noSign, hasFactor, product, mul_assoc]

/-- A side whose terms all have a factor is worth what remains of it at its start. -/
theorem remaining_eq_sideValue {side : Items}
    (complete : ∀ term ∈ side.terms, HasFactor term.2) :
    remaining assignment false 1 side = sideValue assignment side := by
  unfold sideValue remaining
  unfold terms at complete ⊢
  -- The empty run before a leading sign is no term, and brings nothing either.
  split at complete
  next term others cut => simp [cut, HasFactor]
  next run others _ cut =>
    have hasFactor : HasFactor run := complete (false, run) (by simp)
    simp [cut, hasFactor, termValue]

/-- The texts of a list that stand for numbers do so, and its names are in a table. -/
structure Known (table : SymbolTable) (items : Items) : Prop where
  reads : ∀ text, (.coefficient, text) ∈ items → (Numeral.readRat? text).isSome = true
  names : ∀ text, (.name, text) ∈ items → text ∈ table.names

theorem Known.mono {table : SymbolTable} {items fewer : Items} (known : Known table items)
    (among : ∀ item ∈ fewer, item ∈ items) : Known table fewer :=
  ⟨fun text member => known.reads text (among _ member),
    fun text member => known.names text (among _ member)⟩

/-- The pieces of a list, with a table that knows its names. -/
def pieces (table : SymbolTable) (items : Items) : List (Piece ℚ) :=
  items.map (Piece.ofItem Numeral.readRat? table)

end Items

namespace Builder

open Items

variable (assignment : String → ℚ) (table : SymbolTable)

def valueOf (symbol : Symbol) : ℚ := assignment (table.nameOf symbol)

/-- What the balance will be when the rest of a side has been read and closed. -/
def total (builder : Builder ℚ) (rest : Items) : ℚ :=
  builder.balance (valueOf assignment table) + builder.direction *
    remaining assignment builder.coefficient.isSome
      (builder.openValue (valueOf assignment table)) rest

theorem total_openTerm (builder : Builder ℚ) (kind : Kind) (isSign : kind.isSign = true)
    (text : String) (rest : Items) :
    (builder.openTerm (some (if kind = .minus then -1 else 1))).total assignment table rest =
      builder.total assignment table ((kind, text) :: rest) := by
  have opened : (builder.openTerm (some (if kind = .minus then -1 else 1))).coefficient.isSome =
      true := rfl
  rw [total, total, opened, openValue_openTerm, balance_openTerm, balance_closeTerm,
    direction_openTerm, remaining_sign assignment _ _ isSign]
  ring

theorem total_factor {builder next : Builder ℚ} {kind : Kind}
    (isFactor : kind = .coefficient ∨ kind = .name) {text : String} (rest : Items)
    (balance : next.balance (valueOf assignment table) =
      builder.balance (valueOf assignment table))
    (relation : next.relation = builder.relation) (opened : next.coefficient.isSome = true)
    (worth : next.openValue (valueOf assignment table) =
      builder.openValue (valueOf assignment table) * factor assignment (kind, text)) :
    next.total assignment table rest = builder.total assignment table ((kind, text) :: rest) := by
  rw [total, total, remaining_factor assignment _ _ isFactor, balance, opened, worth, direction,
    direction, relation]

/-- No item of a side changes what the balance will be. -/
theorem total_step {item : Kind × String} {rest : Items} {builder : Builder ℚ}
    (onSide : item.1.isOnSide = true) (known : Known table (item :: rest))
    (single : SingleVariables (pending builder.symbol.isSome ++ item.1 :: rest.map Prod.fst)) :
    let next := (builder.step (Piece.ofItem Numeral.readRat? table item)).1
    next.relation = builder.relation ∧
      next.total assignment table rest = builder.total assignment table (item :: rest) ∧
      SingleVariables (pending next.symbol.isSome ++ rest.map Prod.fst) := by
  obtain ⟨kind, text⟩ := item
  let later := { builder with atStart := false }
  -- A sign closes the open term and opens one, an explicit product is nothing, and a factor
  -- multiplies the open term; that a variable is the first of its term is what `single` says.
  cases kind with
  | startOfInput | endOfInput | relation | comma => cases onSide
  | plus =>
    refine ⟨relation_closeTerm later, ?_, (singleVariables_sign rfl _ _).mp single⟩
    exact total_openTerm assignment table later .plus rfl text rest
  | minus =>
    refine ⟨relation_closeTerm later, ?_, (singleVariables_sign rfl _ _).mp single⟩
    exact total_openTerm assignment table later .minus rfl text rest
  | times =>
    refine ⟨rfl, ?_, (singleVariables_factor rfl (by simp) _ _).mp single⟩
    rw [total, total, remaining_times]
    rfl
  | coefficient =>
    obtain ⟨number, read⟩ := Option.isSome_iff_exists.mp (known.reads text (by simp))
    have stepped : (builder.step (Piece.ofItem Numeral.readRat? table (.coefficient, text))).1 =
        later.multiply number := by
      simp [Piece.ofItem, Piece.ofToken, read, step, later]
    rw [stepped]
    refine ⟨rfl, ?_, (singleVariables_factor rfl (by simp) _ _).mp single⟩
    refine total_factor assignment table (.inl rfl) rest rfl rfl rfl ?_
    rw [openValue_multiply, factor, read]
    rfl
  | name =>
    obtain ⟨unnamed, single⟩ := (singleVariables_name _ _).mp single
    have fresh : later.symbol = none := by simpa using unnamed
    have stepped : (builder.step (Piece.ofItem Numeral.readRat? table (.name, text))).1 =
        later.withSymbol (table.intern text).1 := rfl
    rw [stepped]
    refine ⟨rfl, ?_, single⟩
    refine total_factor assignment table (.inr rfl) rest rfl rfl rfl ?_
    -- The table was made of this text, so the symbol stands for the name itself.
    have stands : valueOf assignment table (table.intern text).1 = assignment text :=
      congrArg assignment (SymbolTable.nameOf_intern (known.names text (by simp)))
    rw [openValue_withSymbol _ fresh, stands]
    rfl

/-- Reading a side brings what the side is worth, in the direction of the side. -/
theorem balance_after_side (builder : Builder ℚ) {side : Items}
    (onSide : ∀ item ∈ side, item.1.isOnSide = true) (known : Known table side)
    (single : SingleVariables (pending builder.symbol.isSome ++ side.map Prod.fst)) :
    (builder.after (pieces table side)).relation = builder.relation ∧
      (builder.after (pieces table side)).closeTerm.balance (valueOf assignment table) =
        builder.total assignment table side := by
  -- What the balance will be is known from the start of the side on and never changes.
  induction side generalizing builder with
  | nil =>
    refine ⟨rfl, ?_⟩
    rw [total, remaining_nil]
    exact balance_closeTerm _ builder
  | cons item rest ih =>
    obtain ⟨here, restOnSide⟩ := List.forall_mem_cons.mp onSide
    obtain ⟨relation, total, single⟩ := total_step assignment table here known single
    have later := ih _ restOnSide
      (known.mono fun other member => List.mem_cons_of_mem item member) single
    exact ⟨later.1.trans relation, later.2.trans total⟩

/-- The relational operator closes the left side and turns the direction. -/
theorem step_relation (builder : Builder ℚ) (relation : Relation) (side : Items) :
    let next := (builder.step (.relation relation)).1
    next.relation = some relation ∧ next.symbol = none ∧
      next.total assignment table side = builder.closeTerm.balance (valueOf assignment table) -
        remaining assignment false 1 side := by
  refine ⟨rfl, rfl, ?_⟩
  -- Whatever is open is closed by the operator, and nothing is open after it.
  have worth : (builder.step (.relation relation)).1.openValue (valueOf assignment table) = 1 := by
    simp [step, openTerm, openValue]
  have direction : (builder.step (.relation relation)).1.direction = -1 := rfl
  have closed : (builder.step (.relation relation)).1.coefficient.isSome = false := rfl
  have balance : (builder.step (.relation relation)).1.balance (valueOf assignment table) =
      ({ builder with atStart := false }).closeTerm.balance (valueOf assignment table) := rfl
  rw [total, worth, direction, closed, balance, balance_closeTerm, balance_closeTerm, neg_one_mul,
    ← sub_eq_add_neg]
  rfl

end Builder

namespace Items

theorem cut_append {left right : Items} {relation : Relation} {text : String}
    (onSide : ∀ item ∈ left, item.1.isOnSide = true) :
    Items.left (left ++ (.relation relation, text) :: right) = left ∧
      Items.right (left ++ (.relation relation, text) :: right) = right ∧
      Items.relation? (left ++ (.relation relation, text) :: right) = some relation := by
  have noRelation : ∀ item ∈ left, (!item.1.isRelation) = true := by
    intro item member
    rw [Kind.isRelation_eq_false (onSide item member)]
    rfl
  refine ⟨?_, ?_, ?_⟩
  · rw [Items.left, List.takeWhile_append_of_pos noRelation]
    simp [Kind.isRelation, Kind.relation?]
  · rw [Items.right, List.dropWhile_append_of_pos noRelation]
    simp [Kind.isRelation, Kind.relation?]
  · have nothing : left.findSome? (fun item => item.1.relation?) = none := by
      rw [List.findSome?_eq_none_iff]
      intro item member
      simpa [Kind.isRelation] using noRelation item member
    rw [relation?, List.findSome?_append, nothing]
    rfl

/-- The sides and the relation of a part that is written as an equation. -/
theorem cut_of_isEquation {part : Items} (isEquation : IsEquation (part.map Prod.fst)) :
    ∃ relation text, part = part.left ++ (.relation relation, text) :: part.right ∧
      part.relation? = some relation ∧ IsSide (part.left.map Prod.fst) ∧
      IsSide (part.right.map Prod.fst) := by
  obtain ⟨leftKinds, relation, rightKinds, same, leftSide, rightSide⟩ := isEquation
  -- Where the kinds are cut the text is cut as well.
  obtain ⟨left, rest, rfl, rfl, others⟩ := List.map_eq_append_iff.mp same
  obtain ⟨item, right, rfl, isRelation, rfl⟩ := List.map_eq_cons_iff.mp others
  obtain ⟨kind, text⟩ := item
  obtain rfl : kind = .relation relation := isRelation
  have onSide : ∀ item ∈ left, item.1.isOnSide = true :=
    fun item member => leftSide.onSide item.1 (List.mem_map_of_mem member)
  obtain ⟨leftCut, rightCut, stated⟩ :=
    @cut_append left right relation text onSide
  refine ⟨relation, text, ?_, stated, ?_, ?_⟩
  · rw [leftCut, rightCut]
  · rwa [leftCut]
  · rwa [rightCut]

end Items

namespace Builder

open Items

theorem total_fresh (assignment : String → ℚ) (table : SymbolTable) (atStart : Bool)
    (side : Items) :
    (fresh atStart).total assignment table side = remaining assignment false 1 side := by
  simp [total, fresh, balance, direction, openValue]

/-- Reading two sides and the operator between them brings the difference of their values. -/
theorem balance_after_sides {table : SymbolTable} {left right : Items} {relation : Relation}
    (atStart : Bool) (leftSide : IsSide (left.map Prod.fst))
    (rightSide : IsSide (right.map Prod.fst)) (leftKnown : Known table left)
    (rightKnown : Known table right) (leftComplete : ∀ term ∈ left.terms, HasFactor term.2)
    (rightComplete : ∀ term ∈ right.terms, HasFactor term.2) (assignment : String → ℚ) :
    let last := (((fresh atStart).after (pieces table left)).step (.relation relation)).1.after
      (pieces table right)
    last.relation = some relation ∧ last.closeTerm.balance (valueOf assignment table) =
      sideValue assignment left - sideValue assignment right := by
  intro last
  let middle := (fresh atStart).after (pieces table left)
  have onLeft : ∀ item ∈ left, item.1.isOnSide = true :=
    fun item member => leftSide.onSide _ (List.mem_map_of_mem member)
  have onRight : ∀ item ∈ right, item.1.isOnSide = true :=
    fun item member => rightSide.onSide _ (List.mem_map_of_mem member)
  obtain ⟨-, leftDone⟩ :=
    balance_after_side assignment table (fresh atStart) onLeft leftKnown leftSide.single
  obtain ⟨related, rightDone⟩ := balance_after_side assignment table
    (middle.step (.relation relation)).1 onRight rightKnown rightSide.single
  obtain ⟨stated, -, turned⟩ := step_relation assignment table middle relation right
  constructor
  · exact related.trans stated
  · calc last.closeTerm.balance (valueOf assignment table)
      _ = (middle.step (.relation relation)).1.total assignment table right := rightDone
      _ = middle.closeTerm.balance (valueOf assignment table) -
          remaining assignment false 1 right := turned
      _ = remaining assignment false 1 left - remaining assignment false 1 right := by
        rw [leftDone, total_fresh]
      _ = sideValue assignment left - sideValue assignment right := by
        rw [remaining_eq_sideValue assignment leftComplete,
          remaining_eq_sideValue assignment rightComplete]

/-- A part that is written as an equation makes one that holds whenever the part does. -/
theorem exists_finish_of_part {table : SymbolTable} {part : Items} (atStart : Bool)
    (isEquation : IsEquation (part.map Prod.fst)) (known : Known table part)
    (complete : ∀ term ∈ part.left.terms ++ part.right.terms, HasFactor term.2) :
    ∃ equation, ((fresh atStart).after (pieces table part)).finish = some equation ∧
      ∀ assignment, part.Holds assignment ↔ equation.Holds assignment table := by
  obtain ⟨relation, text, cut, stated, leftSide, rightSide⟩ := cut_of_isEquation isEquation
  obtain ⟨leftComplete, rightComplete⟩ := List.forall_mem_append.mp complete
  have leftKnown : Known table part.left := known.mono fun item member => by
    rw [cut]; simp [member]
  have rightKnown : Known table part.right := known.mono fun item member => by
    rw [cut]; simp [member]
  let last := (((fresh atStart).after (pieces table part.left)).step (.relation relation)).1.after
    (pieces table part.right)
  have read : (fresh atStart).after (pieces table part) = last := by
    have cutPieces : pieces table part =
        pieces table part.left ++ .relation relation :: pieces table part.right := by
      conv_lhs => rw [cut]
      simp [pieces, Piece.ofItem, Piece.ofToken]
    rw [cutPieces, after_append, after_cons]
  have sides := @balance_after_sides table part.left part.right relation atStart leftSide
    rightSide leftKnown rightKnown leftComplete rightComplete
  have related : last.relation = some relation := (sides fun _ => 0).1
  refine ⟨⟨relation, last.closeTerm.form, last.closeTerm.bound⟩, ?_, ?_⟩
  · rw [read, finish, relation_closeTerm, related]
    rfl
  · -- Terms and bound stand on other sides than in the text, but their difference is the same.
    intro assignment
    rw [Equation.holds_iff, Items.Holds, stated]
    simp only [Option.some.injEq, exists_eq_left']
    exact Relation.holds_of_sub_eq (sides assignment).2.symm

/-! ### Lists of equations -/

theorem forall₂_flatMap {α β : Type} {holds : α → β → Prop} {result : α → Option β}
    {list : List α} (each : ∀ element ∈ list, ∃ value, result element = some value ∧
      holds element value) :
    List.Forall₂ holds list (list.flatMap fun element => (result element).toList) := by
  induction list with
  | nil => exact .nil
  | cons element rest ih =>
    obtain ⟨value, found, meaning⟩ := each element (by simp)
    have others := ih fun other member => each other (List.mem_cons_of_mem element member)
    simpa [found] using List.Forall₂.cons meaning others

theorem splitOnP_ofItem {α : Type} (read : String → Option α) (table : SymbolTable)
    (items : Items) :
    (items.map (Piece.ofItem read table)).splitOnP Piece.isComma =
      (items.splitOnP fun item => item.1 == .comma).map (List.map (Piece.ofItem read table)) := by
  have comma : (fun item : Kind × String => (Piece.ofItem read table item).isComma) =
      fun item => item.1 == .comma := by
    simp [Piece.isComma]
  rw [splitOnP_map, comma]

/-- If every part makes an equation by itself, one by one these are the equations of the list. -/
theorem forall₂_of_parts {α : Type} [OfNat α 0] [OfNat α 1] [Add α] [Sub α] [Mul α] [Neg α] [BEq α]
    {holds : Items → Equation α → Prop} (read : String → Option α) (table : SymbolTable)
    {items : Items} (inner : ∀ item ∈ items, item.1 ≠ .startOfInput ∧ item.1 ≠ .endOfInput)
    (each : ∀ atStart, ∀ part ∈ items.relations, ∃ equation,
      ((fresh atStart).after (part.map (Piece.ofItem read table))).finish = some equation ∧
        holds part equation) :
    List.Forall₂ holds items.relations
      ((fresh true).equations (items.map (Piece.ofItem read table) ++ [.endOfInput])) := by
  by_cases empty : items = []
  · subst empty
    exact .nil
  have relations : items.relations = items.splitOnP fun item => item.1 == .comma := if_neg empty
  obtain ⟨first, others, cut⟩ := List.exists_cons_of_ne_nil
    (List.splitOnP_ne_nil (fun item : Kind × String => item.1 == .comma) items)
  have cutPieces : (items.map (Piece.ofItem read table)).splitOnP Piece.isComma =
      first.map (Piece.ofItem read table) :: others.map (List.map (Piece.ofItem read table)) := by
    rw [splitOnP_ofItem, cut, List.map_cons]
  have innerPieces : ∀ piece ∈ items.map (Piece.ofItem read table),
      piece.kind ≠ .startOfInput ∧ piece.kind ≠ .endOfInput := by
    intro piece member
    obtain ⟨item, present, rfl⟩ := List.mem_map.mp member
    simpa using inner item present
  -- The first part is read from the start of the source, every other after a comma.
  rw [relations, cut] at each ⊢
  rw [equations_eq_flatMap innerPieces (fun _ => rfl) cutPieces, List.flatMap_map]
  obtain ⟨equation, finished, meaning⟩ := each true first (by simp)
  rw [finished]
  apply List.Forall₂.cons meaning
  apply forall₂_flatMap
  intro part among
  exact each false part (by simp [among])

/-- The equations of a list hold one by one whenever its parts do. -/
theorem forall₂_equations {table : SymbolTable} {items : Items}
    (inner : ∀ item ∈ items, item.1 ≠ .startOfInput ∧ item.1 ≠ .endOfInput)
    (list : IsEquationList (items.map Prod.fst)) (known : Known table items)
    (complete : ∀ part ∈ items.relations, ∀ term ∈ part.left.terms ++ part.right.terms,
      HasFactor term.2) :
    List.Forall₂ (fun part equation => ∀ assignment, part.Holds assignment ↔
        equation.Holds assignment table)
      items.relations ((fresh true).equations (pieces table items ++ [.endOfInput])) := by
  apply forall₂_of_parts Numeral.readRat? table inner
  intro atStart part among
  have partKnown : Known table part :=
    known.mono fun item member => mem_of_mem_relations among member
  exact exists_finish_of_part atStart (isEquation_of_mem_relations list among) partKnown
    (complete part among)

end Builder

end LinearSystem
