import LinearSystem.Proofs.Equation.Naming
import LinearSystem.Proofs.Equation.Source
import LinearSystem.Proofs.Lexical.Commas
/-!
What a source is parsed to.

Items between two commas make an equation by themselves (`Items.equation?`), whatever was read
before them. A source is parsed if its text can be read as a list of equations, and then to the
equations that its parts make (`Source.parse_eq_ok`).
-/
namespace LinearSystem

open Grammar

/-! ### Equations of items -/

namespace Builder

variable {α : Type} [OfNat α 0] [OfNat α 1] [Add α] [Sub α] [Mul α] [Neg α] [BEq α]

theorem finish_after_fresh (atStart : Bool) (pieces : List (Piece α)) :
    ((fresh atStart).after pieces).finish = ((fresh false).after pieces).finish := by
  cases pieces with
  | nil => rfl
  | cons piece rest => rw [after_cons, after_cons, step_fresh]

/-- A side changes nothing of the relation. -/
theorem relation_after_side {builder : Builder α} {pieces : List (Piece α)}
    (onSide : ∀ piece ∈ pieces, piece.kind.isOnSide = true) :
    (builder.after pieces).relation = builder.relation := by
  induction pieces generalizing builder with
  | nil => rfl
  | cons piece rest ih =>
    obtain ⟨here, later⟩ := List.forall_mem_cons.mp onSide
    rw [after_cons, ih later]
    cases piece with
    | startOfInput | endOfInput | relation | comma => cases here
    | plus | minus => simp [step, openTerm]
    | times | name => rfl
    | coefficient value => cases value <;> rfl

end Builder

namespace Items

/-- The equation that items make by themselves, with a table that knows their names. -/
def equation? (table : SymbolTable) (part : Items) : Option (Equation Float) :=
  ((Builder.fresh false).after (part.map (Piece.ofItem Numeral.readFloat? table))).finish

/-- The equations of the parts between commas. -/
def equations (table : SymbolTable) (items : Items) : List (Equation Float) :=
  (items.splitOnP isCommaItem).flatMap fun part => (equation? table part).toList

/-- Tables that know the names of items make the same equation of them, but for the numbers of the
names. -/
theorem equation?_alike {table other : SymbolTable} {part : Items}
    (known : ∀ text, (.name, text) ∈ part → text ∈ table.names ∧ text ∈ other.names) :
    Option.Rel (Equation.Alike table other) (equation? table part) (equation? other part) :=
  ((Builder.alike_fresh false).after Numeral.readFloat? known).finish

theorem equations_alike {table other : SymbolTable} {items : Items}
    (known : ∀ text, (.name, text) ∈ items → text ∈ table.names ∧ text ∈ other.names) :
    List.Forall₂ (Equation.Alike table other) (equations table items) (equations other items) := by
  have each : ∀ part ∈ items.splitOnP isCommaItem,
      Option.Rel (Equation.Alike table other) (equation? table part) (equation? other part) := by
    intro part among
    exact equation?_alike fun text member => known text (mem_of_mem_splitOnP among member).1
  unfold equations
  generalize items.splitOnP isCommaItem = parts at each ⊢
  induction parts with
  | nil => exact .nil
  | cons part rest ih =>
    obtain ⟨here, later⟩ := List.forall_mem_cons.mp each
    rw [List.flatMap_cons, List.flatMap_cons]
    apply List.rel_append _ (ih later)
    generalize equation? table part = made at here ⊢
    generalize equation? other part = made' at here ⊢
    cases here with
    | none => exact .nil
    | some alike => exact .cons alike .nil

theorem exists_equation {part : Items} (table : SymbolTable)
    (isEquation : IsEquation (part.map Prod.fst)) :
    ∃ equation, equation? table part = some equation := by
  obtain ⟨relation, text, cut, -, leftSide, rightSide⟩ := cut_of_isEquation isEquation
  have onSide {side : Items} (isSide : IsSide (side.map Prod.fst)) :
      ∀ piece ∈ side.map (Piece.ofItem Numeral.readFloat? table),
        piece.kind.isOnSide = true := by
    intro piece member
    obtain ⟨item, among, rfl⟩ := List.mem_map.mp member
    rw [Piece.kind_ofItem]
    exact isSide.onSide _ (List.mem_map_of_mem among)
  -- The relation is set between the sides and stays.
  have related : ((Builder.fresh false).after
      (part.map (Piece.ofItem Numeral.readFloat? table))).relation = some relation := by
    rw [cut, List.map_append, List.map_cons, Builder.after_append, Builder.after_cons,
      Builder.relation_after_side (onSide rightSide)]
    rfl
  apply Option.isSome_iff_exists.mp
  rw [equation?, Builder.isSome_finish, related]
  rfl

/-- What a builder collects of items is what their parts make by themselves. -/
theorem equations_eq {items : Items} (table : SymbolTable)
    (inner : ∀ item ∈ items, item.1 ≠ .startOfInput ∧ item.1 ≠ .endOfInput) :
    (Builder.fresh true).equations
        (items.map (Piece.ofItem Numeral.readFloat? table) ++ [.endOfInput]) =
      equations table items := by
  let read := Piece.ofItem Numeral.readFloat? table
  obtain ⟨first, others, cut⟩ :=
    List.exists_cons_of_ne_nil (List.splitOnP_ne_nil isCommaItem items)
  have comma : (fun item => (read item).isComma) = isCommaItem := by
    funext item
    simp [read, Piece.isComma, isCommaItem]
  have cutPieces : (items.map read).splitOnP Piece.isComma =
      first.map read :: others.map (List.map read) := by
    rw [splitOnP_map, comma, cut, List.map_cons]
  have innerPieces : ∀ piece ∈ items.map read,
      piece.kind ≠ .startOfInput ∧ piece.kind ≠ .endOfInput := by
    intro piece member
    obtain ⟨item, among, rfl⟩ := List.mem_map.mp member
    simpa [read] using inner item among
  rw [Builder.equations_eq_flatMap innerPieces (fun _ => rfl) cutPieces,
    Builder.finish_after_fresh, equations, cut, List.flatMap_cons, List.flatMap_map]
  rfl

end Items

namespace Source

theorem inner_of_readsAs {text : List Char} {items : Items} (reads : ReadsAs text items) :
    ∀ item ∈ items, item.1 ≠ .startOfInput ∧ item.1 ≠ .endOfInput := by
  intro item member
  have spelled := reads.spells item member
  constructor
  · intro starts
    rw [starts] at spelled
    exact spelled
  · intro ends
    rw [ends] at spelled
    exact spelled

/-- The table that a source leaves behind knows the names of its text. -/
theorem table_equations {items : Items} {chain : Chain} (table : SymbolTable)
    (listed : chain.items = (.startOfInput, "") :: (items ++ [(.endOfInput, "")])) :
    (Piece.ofTokens Numeral.readFloat? table chain.items).2 =
      (Piece.ofTokens Numeral.readFloat? table items).2 := by
  rw [listed, Piece.ofTokens_cons, Piece.ofTokens_append]
  rfl

/-- A source is parsed if its text can be read as equations, to the equations that its parts make
by themselves. -/
theorem parse_eq_ok {table after : SymbolTable} {source : String}
    {equations : List (Equation Float)} :
    parse table source = (.ok equations, after) ↔
      ∃ items, ReadsAs source.toList items ∧ IsEquationList (items.map Prod.fst) ∧
        (Piece.ofTokens Numeral.readFloat? table items).2 = after ∧
        Items.equations after items = equations := by
  have collected {chain : Chain} {items : Items} (reads : ReadsAs source.toList items)
      (listed : chain.items = (.startOfInput, "") :: (items ++ [(.endOfInput, "")])) :
      chain.equations Numeral.readFloat? table =
        (Items.equations (Piece.ofTokens Numeral.readFloat? table items).2 items,
          (Piece.ofTokens Numeral.readFloat? table items).2) := by
    have known := table_equations table listed
    apply Prod.ext
    · rw [Source.equations_eq Numeral.readFloat? table listed, known,
        Items.equations_eq _ (inner_of_readsAs reads)]
    · exact known
  have accepted {chain : Chain} {items : Items} (read : Chain.ofSource source = .ok chain)
      (listed : chain.items = (.startOfInput, "") :: (items ++ [(.endOfInput, "")])) :
      chain.check = .ok () ↔ IsEquationList (items.map Prod.fst) := by
    have integral := Chain.integral_of_ofSource read
    obtain ⟨-, -, -, kinds⟩ := exists_inner integral
    rw [integral.accepted_iff, ← kinds, listed, List.tail_cons, List.dropLast_concat]
  unfold parse
  rw [parseWith_eq_ok]
  constructor
  · rintro ⟨chain, lexed, built⟩
    obtain ⟨read, checked⟩ := chain_eq_ok.mp lexed
    obtain ⟨items, reads, listed⟩ := Chain.exists_readsAs read
    rw [collected reads listed] at built
    obtain ⟨rfl, rfl⟩ := Prod.mk.inj built
    exact ⟨items, reads, (accepted read listed).mp checked, rfl, rfl⟩
  · rintro ⟨items, reads, list, rfl, rfl⟩
    obtain ⟨chain, read, listed⟩ := reads.exists_chain
    exact ⟨chain, chain_eq_ok.mpr ⟨read, (accepted read listed).mpr list⟩, collected reads listed⟩

end Source

end LinearSystem
