import LinearSystem.Equation.Printer
import LinearSystem.Symbol.Interner
/-!
Equations shown by the names of an interner.

An equation knows its variables by their numbers only. What is asked of it by name, and what is
shown of it, goes through the interner as it is at the time. The variables of an equation are kept
in a hash map, which is gone through in any order: where the order could matter, it is a parameter.
-/
namespace LinearSystem.Interner

variable {α : Type}

/-- The name of a variable. Without a number that was given out there is none, and the text is
empty. -/
def nameOf (interner : Interner) (symbol : Symbol) : String :=
  (interner.name? symbol.id.toUInt32).getD ""

/-- The coefficient of a named variable, if it occurs. -/
def coefficient? (interner : Interner) (equation : Equation α) (name : String) : Option α :=
  (interner.lookup? name).bind fun id => equation.form.coefficient? ⟨id.toNat⟩

/-- Whether a named variable occurs. -/
def contains (interner : Interner) (equation : Equation α) (name : String) : Bool :=
  (interner.coefficient? equation name).isSome

/-- Variables by name with their coefficients, in ascending order of the names. -/
def terms (interner : Interner) (order : List (Symbol × α)) : List (String × α) :=
  Text.sortByName (order.map fun term => (interner.nameOf term.1, term.2))

/-- The line of an equation whose variables are gone through in an order. -/
def line (interner : Interner) (equation : Equation Float) (order : List (Symbol × Float)) :
    String :=
  Equation.leftSide (interner.terms order) ++ " " ++ equation.relation.spelling ++ " "
    ++ Equation.number equation.bound

/-- Variables by name with their coefficients, as `terms` gives them. There are none if a variable
has a number that was not given out. -/
def terms? (interner : Interner) (order : List (Symbol × α)) : Option (List (String × α)) := do
  let named ← order.mapM fun term =>
    (interner.name? term.1.id.toUInt32).map fun name => (name, term.2)
  return Text.sortByName named

/-- The line of an equation, as `line` gives it. There is none if a variable has a number that was
not given out. -/
def line? (interner : Interner) (equation : Equation Float) (order : List (Symbol × Float)) :
    Option String := do
  let terms ← interner.terms? order
  return Equation.leftSide terms ++ " " ++ equation.relation.spelling ++ " "
    ++ Equation.number equation.bound

end LinearSystem.Interner
