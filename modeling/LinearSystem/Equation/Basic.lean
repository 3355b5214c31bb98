import LinearSystem.Equation.LinearForm
import LinearSystem.Relation
import LinearSystem.Text.Order
/-!
Equations in normal form: a linear form on the left, a relation, and a number on the right, which is
called the bound. Inequalities count as equations.
-/
namespace LinearSystem

/-- The statement that the value of a linear form is in a relation to a bound. -/
structure Equation (α : Type) where
  relation : Relation
  form : LinearForm α
  bound : α

namespace Equation

variable {α : Type}

/-- The coefficient of a named variable, if it occurs. -/
def coefficient? (equation : Equation α) (table : SymbolTable) (name : String) : Option α :=
  (table.lookup? name).bind equation.form.coefficient?

/-- Whether a named variable occurs. -/
def contains (equation : Equation α) (table : SymbolTable) (name : String) : Bool :=
  (equation.coefficient? table name).isSome

/-- The number of variables. -/
def size (equation : Equation α) : Nat := equation.form.size

/-- Whether no variable occurs. -/
def isEmpty (equation : Equation α) : Bool := equation.form.terms.isEmpty

/-- The variables by name with their coefficients, in the order that they were added in. -/
def namedTerms (equation : Equation α) (table : SymbolTable) : List (String × α) :=
  equation.form.terms.map fun (symbol, value) => (table.nameOf symbol, value)

/-- The variables by name with their coefficients, in ascending order of the names. -/
def terms (equation : Equation α) (table : SymbolTable) : List (String × α) :=
  Text.sortByName (equation.namedTerms table)

end Equation

end LinearSystem
