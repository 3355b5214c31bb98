import LinearSystem.Equation.Basic
import LinearSystem.Token.Chain
/-!
Building equations from tokens.

A `Builder` holds the equation that is being read and its unfinished term. A term is closed by
whatever ends it, a sign, a relational operator, a comma or the end of the source: it is then added
to the form or, without a variable, taken from the bound, and it changes sign if a relational
operator came before it. The numbers may be of any type with the operations that this needs.

Builders take pieces in any order, grammatical or not.
-/
namespace LinearSystem

/-- What a builder is told of a token. A coefficient whose text is no numeral has no value. -/
inductive Piece (α : Type) where
  | startOfInput
  | endOfInput
  | plus
  | minus
  | times
  | relation (relation : Relation)
  | coefficient (value : Option α)
  | name (symbol : Symbol)
  | comma
  deriving DecidableEq, Repr

namespace Piece

variable {α : Type}

/-- The piece of a token of some kind and text, with its name interned and its numeral read. -/
def ofToken (read : String → Option α) (table : SymbolTable) (kind : Kind) (text : String) :
    Piece α × SymbolTable :=
  match kind with
  | .startOfInput => (startOfInput, table)
  | .endOfInput => (endOfInput, table)
  | .plus => (plus, table)
  | .minus => (minus, table)
  | .times => (times, table)
  | .relation r => (relation r, table)
  | .coefficient => (coefficient (read text), table)
  | .name =>
    let (symbol, table) := table.intern text
    (name symbol, table)
  | .comma => (comma, table)

/-- The pieces of tokens, their names interned in order. -/
def ofTokens (read : String → Option α) (table : SymbolTable) :
    List (Kind × String) → List (Piece α) × SymbolTable
  | [] => ([], table)
  | (kind, text) :: rest =>
    let (piece, table) := ofToken read table kind text
    let (pieces, table) := ofTokens read table rest
    (piece :: pieces, table)

end Piece

/-- An unfinished equation: the relation once it has been read, the form and the bound of the closed
terms, the coefficient and the variable of the open one, and whether no piece has been taken since
the start of the source. -/
structure Builder (α : Type) where
  relation : Option Relation
  form : LinearForm α
  bound : α
  coefficient : Option α
  symbol : Option Symbol
  atStart : Bool

/-- Whether a builder needs more pieces, or else what it answers. -/
inductive Reply (α : Type) where
  | more
  | answer (equation : Option (Equation α))

namespace Builder

variable {α : Type} [OfNat α 0] [OfNat α 1] [Add α] [Sub α] [Mul α] [Neg α] [BEq α]

/-- A builder that holds nothing. -/
def fresh (atStart : Bool) : Builder α :=
  { relation := none, form := .empty, bound := 0, coefficient := none, symbol := none, atStart }

/-- Closes the open term. A term without coefficient or of value zero leaves no trace. -/
def closeTerm (builder : Builder α) : Builder α :=
  match builder.coefficient with
  | none => builder
  | some value =>
    if value == 0 then builder
    else
      -- Terms after the relational operator are moved to the left side.
      let moved := if builder.relation.isSome then -value else value
      match builder.symbol with
      | some symbol => { builder with form := builder.form.add symbol moved }
      | none => { builder with bound := builder.bound - moved }

/-- Closes the open term and opens another with a coefficient to start from. -/
def openTerm (builder : Builder α) (coefficient : Option α) : Builder α :=
  { builder.closeTerm with coefficient := coefficient, symbol := none }

/-- Closes the equation; without a relation there is none. -/
def finish (builder : Builder α) : Option (Equation α) :=
  let closed := builder.closeTerm
  closed.relation.map fun relation => ⟨relation, closed.form, closed.bound⟩

/-- Multiplies the open term by a coefficient. -/
def multiply (builder : Builder α) (value : α) : Builder α :=
  { builder with coefficient := some (builder.coefficient.getD 1 * value) }

/-- Gives the open term its variable. -/
def withSymbol (builder : Builder α) (symbol : Symbol) : Builder α :=
  { builder with coefficient := some (builder.coefficient.getD 1), symbol := some symbol }

/-- Takes one piece. A comma answers only if it completes an equation; the end of the source always
answers, but directly after the start it closes nothing. -/
def step (builder : Builder α) (piece : Piece α) : Builder α × Reply α :=
  let later := { builder with atStart := false }
  match piece with
  | .startOfInput => ({ builder with atStart := true }, .more)
  | .endOfInput =>
    if builder.atStart then (later, .answer none) else (fresh false, .answer builder.finish)
  | .plus => (later.openTerm (some 1), .more)
  | .minus => (later.openTerm (some (-1)), .more)
  | .times => (later, .more)
  | .relation relation => ({ later.openTerm none with relation := some relation }, .more)
  | .coefficient none => (later, .more)
  | .coefficient (some value) => (later.multiply value, .more)
  | .name symbol => (later.withSymbol symbol, .more)
  | .comma =>
    match builder.finish with
    | some equation => (fresh false, .answer (some equation))
    | none => (fresh false, .more)

/-- Takes pieces up to the next answer; when the pieces run out the answer is nothing. -/
def next (builder : Builder α) : List (Piece α) → Option (Equation α) × Builder α × List (Piece α)
  | [] => (none, builder, [])
  | piece :: rest =>
    match builder.step piece with
    | (builder, .more) => builder.next rest
    | (builder, .answer equation) => (equation, builder, rest)

/-- The answers to so many calls. -/
def answers (builder : Builder α) (pieces : List (Piece α)) : Nat → List (Option (Equation α))
  | 0 => []
  | calls + 1 =>
    let (equation, builder, rest) := builder.next pieces
    equation :: builder.answers rest calls

/-- The equations up to the first answer that is none. -/
def equations (builder : Builder α) : List (Piece α) → List (Equation α)
  | [] => []
  | piece :: rest =>
    match builder.step piece with
    | (builder, .more) => builder.equations rest
    | (builder, .answer (some equation)) => equation :: builder.equations rest
    | (_, .answer none) => []

end Builder

/-- The kinds and texts of a chain's tokens. -/
def Chain.items (chain : Chain) : List (Kind × String) :=
  chain.toList.map fun token => (token.kind, token.value)

/-- The equations that a chain of tokens states, and the table with their variables. -/
def Chain.equations {α : Type} [OfNat α 0] [OfNat α 1] [Add α] [Sub α] [Mul α] [Neg α] [BEq α]
    (read : String → Option α) (table : SymbolTable) (chain : Chain) :
    List (Equation α) × SymbolTable :=
  let (pieces, table) := Piece.ofTokens read table chain.items
  ((Builder.fresh true).equations pieces, table)

end LinearSystem
