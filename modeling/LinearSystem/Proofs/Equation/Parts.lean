import LinearSystem.Proofs.Equation.Agreement
import LinearSystem.Proofs.Symbol.Table
/-!
Equations are built one by one.

With the table that a text leaves behind, every token can be read by itself (`ofTokens_eq_map`).
The pieces between two commas make an equation by themselves: what a builder collects is what fresh
builders make of the parts (`Builder.equations_eq_flatMap`), and the relations of what it collects
are those that the text states (`Builder.map_relation_equations`).
-/
namespace LinearSystem

open Grammar

variable {α : Type}

namespace Piece

/-- The piece of one token, with a table that knows its name. -/
def ofItem (read : String → Option α) (table : SymbolTable) (item : Kind × String) : Piece α :=
  (ofToken read table item.1 item.2).1

@[simp] theorem kind_ofItem (read : String → Option α) (table : SymbolTable)
    (item : Kind × String) : (ofItem read table item).kind = item.1 :=
  kind_ofToken read table item.1 item.2

theorem ofTokens_cons (read : String → Option α) (table : SymbolTable) (item : Kind × String)
    (rest : List (Kind × String)) :
    ofTokens read table (item :: rest) =
      ((ofToken read table item.1 item.2).1 ::
          (ofTokens read (ofToken read table item.1 item.2).2 rest).1,
        (ofTokens read (ofToken read table item.1 item.2).2 rest).2) := rfl

theorem extends_ofToken (read : String → Option α) (table : SymbolTable) (kind : Kind)
    (text : String) : table.Extends (ofToken read table kind text).2 := by
  cases kind with
  | name => exact table.extends_intern text
  | startOfInput | endOfInput | plus | minus | times | relation | coefficient | comma =>
    exact table.extends_refl

theorem extends_ofTokens (read : String → Option α) (table : SymbolTable)
    (items : List (Kind × String)) : table.Extends (ofTokens read table items).2 := by
  induction items generalizing table with
  | nil => exact table.extends_refl
  | cons item rest ih => exact (extends_ofToken read table item.1 item.2).trans (ih _)

theorem ofToken_eq_ofItem (read : String → Option α) {table later : SymbolTable}
    (item : Kind × String) (grown : (ofToken read table item.1 item.2).2.Extends later) :
    (ofToken read table item.1 item.2).1 = ofItem read later item := by
  obtain ⟨kind, text⟩ := item
  cases kind with
  | name => exact congrArg name grown.intern_eq.symm
  | startOfInput | endOfInput | plus | minus | times | relation | coefficient | comma => rfl

/-- The pieces of a text are those of its tokens, read with the table at its end. -/
theorem ofTokens_eq_map (read : String → Option α) {table later : SymbolTable}
    (items : List (Kind × String)) (grown : (ofTokens read table items).2.Extends later) :
    (ofTokens read table items).1 = items.map (ofItem read later) := by
  induction items generalizing table with
  | nil => rfl
  | cons item rest ih =>
    -- The table after the first token is on the way to the later one.
    have first := ofToken_eq_ofItem read item ((extends_ofTokens read _ rest).trans grown)
    have others := @ih (ofToken read table item.1 item.2).2 grown
    rw [ofTokens_cons, List.map_cons, first, others]

theorem mem_ofTokens (read : String → Option α) {table : SymbolTable}
    {items : List (Kind × String)} {text : String} (member : (.name, text) ∈ items) :
    text ∈ (ofTokens read table items).2.names := by
  induction items generalizing table with
  | nil => cases member
  | cons item rest ih =>
    rcases List.mem_cons.mp member with rfl | member
    · exact (extends_ofTokens read _ rest).subset (table.mem_intern text)
    · exact ih member

/-- A table that knows all names stays as it is. -/
theorem table_of_known (read : String → Option α) {table : SymbolTable}
    {items : List (Kind × String)} (known : ∀ name, (.name, name) ∈ items → name ∈ table.names) :
    (ofTokens read table items).2 = table := by
  induction items with
  | nil => rfl
  | cons item rest ih =>
    have first : (ofToken read table item.1 item.2).2 = table := by
      obtain ⟨kind, text⟩ := item
      cases kind with
      | name =>
        have isKnown := known text List.mem_cons_self
        simp [ofToken, SymbolTable.intern, isKnown]
      | startOfInput | endOfInput | plus | minus | times | relation | coefficient | comma => rfl
    rw [ofTokens_cons, first]
    exact ih fun name member => known name (List.mem_cons_of_mem item member)

def isComma (piece : Piece α) : Bool := piece.kind == .comma

end Piece

namespace Grammar

/-- The relations that kinds between the ends of a source state, the one of the equation that they
begin in being known or not. -/
def statedRelations (relation : Option Relation) : List Kind → List Relation
  | [] => relation.toList
  | .relation next :: rest => statedRelations (some next) rest
  | .comma :: rest => relation.toList ++ statedRelations none rest
  | _ :: rest => statedRelations relation rest

end Grammar

namespace Builder

variable [OfNat α 0] [OfNat α 1] [Add α] [Sub α] [Mul α] [Neg α] [BEq α]

/-! ### Parts between commas -/

theorem after_cons (builder : Builder α) (piece : Piece α) (rest : List (Piece α)) :
    builder.after (piece :: rest) = (builder.step piece).1.after rest := rfl

theorem atStart_step (builder : Builder α) {piece : Piece α}
    (later : piece.kind ≠ .startOfInput) : (builder.step piece).1.atStart = false := by
  cases piece with
  | startOfInput => exact absurd rfl later
  | plus | minus | times | relation | name => simp [step, openTerm, withSymbol]
  | coefficient value => cases value <;> rfl
  | comma => rw [step_comma]; rfl
  | endOfInput =>
    simp only [step]
    split <;> rfl

/-- Whether a builder that holds nothing is at the start of the source does not show in what it
does: the end has nothing to close either way. -/
theorem step_fresh (atStart : Bool) (piece : Piece α) :
    (fresh atStart).step piece = (fresh false).step piece := by
  cases atStart with
  | false => rfl
  | true =>
    cases piece with
    | startOfInput | endOfInput | plus | minus | times | relation | name | comma => rfl
    | coefficient value => cases value <;> rfl

/-- What is collected of a text is what its first part makes of the builder, and what each later
part makes of a fresh one. -/
theorem equations_eq_flatMap {builder : Builder α} {pieces first : List (Piece α)}
    {others : List (List (Piece α))}
    (inner : ∀ piece ∈ pieces, piece.kind ≠ .startOfInput ∧ piece.kind ≠ .endOfInput)
    (idle : builder.atStart = true → builder.relation = none)
    (parts : pieces.splitOnP Piece.isComma = first :: others) :
    builder.equations (pieces ++ [.endOfInput]) =
      (builder.after first).finish.toList ++
        others.flatMap fun part => ((fresh false).after part).finish.toList := by
  -- The builder is whatever the pieces of the first part so far have made of it; a comma puts a
  -- fresh one in its place, and the next part begins.
  induction pieces generalizing builder first others with
  | nil =>
    cases parts
    rw [List.nil_append, equations_cons builder (.inr rfl), equation?_step]
    cases started : builder.atStart with
    | true => simp [equations, after, finish, idle started]
    | false => simp [equations, after]
  | cons piece rest ih =>
    obtain ⟨head, tail, split⟩ :=
      List.exists_cons_of_ne_nil (List.splitOnP_ne_nil Piece.isComma rest)
    obtain ⟨⟨noStart, noEnd⟩, innerRest⟩ := List.forall_mem_cons.mp inner
    have later := builder.atStart_step noStart
    rw [List.splitOnP_cons_eq_if_modifyHead, split] at parts
    rw [List.cons_append, equations_cons builder (.inl noEnd), equation?_step,
      ih innerRest (by simp [later]) split]
    cases piece with
    | startOfInput | endOfInput => contradiction
    | comma =>
      cases parts
      rw [step_comma]
      rfl
    | plus | minus | times | relation | coefficient | name =>
      cases parts
      rfl

/-! ### Relations -/

/-- The relations of what is collected do not depend on numbers. -/
theorem map_relation_equations {builder : Builder α} {pieces : List (Piece α)}
    (inner : ∀ piece ∈ pieces, piece.kind ≠ .startOfInput ∧ piece.kind ≠ .endOfInput)
    (idle : builder.atStart = true → builder.relation = none) :
    (builder.equations (pieces ++ [.endOfInput])).map Equation.relation =
      statedRelations builder.relation (pieces.map Piece.kind) := by
  induction pieces generalizing builder with
  | nil =>
    rw [List.nil_append, equations_cons builder (.inr rfl), equation?_step]
    cases started : builder.atStart with
    | true => simp [equations, statedRelations, idle started]
    | false => simp [equations, statedRelations, ← Option.toList_map]
  | cons piece rest ih =>
    obtain ⟨⟨noStart, noEnd⟩, innerRest⟩ := List.forall_mem_cons.mp inner
    have later := builder.atStart_step noStart
    rw [List.cons_append, equations_cons builder (.inl noEnd), equation?_step, List.map_append,
      ih innerRest (by simp [later]), List.map_cons]
    cases piece with
    | startOfInput | endOfInput => contradiction
    | comma =>
      rw [step_comma, ← Option.toList_map, map_relation_finish]
      rfl
    | relation next => rfl
    | plus | minus => simp [statedRelations, Piece.kind, step, openTerm]
    | times | name => rfl
    | coefficient value => cases value <;> rfl

end Builder

end LinearSystem
