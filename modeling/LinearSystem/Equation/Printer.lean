import LinearSystem.Decimal.Layout
import LinearSystem.Equation.Basic
/-!
Equations as a line of text: the terms in order of their names, each a coefficient and a name, then
the operator and the bound. The first term carries its sign on its coefficient and the later ones in
front of it; a form without terms is written `0`.
-/
namespace LinearSystem

/-- Numbers in equations have no exponent and no point without digits after it, and of two shortest
decimals that are equally near the upper one is written. -/
def NumeralStyle.line : NumeralStyle where
  tie := .up
  isPositional := fun _ => true
  wholeMark := ""
  infinity := "inf"
  minusInfinity := "-inf"
  notANumber := "NaN"

namespace Equation

/-- A coefficient or a bound. -/
def number (x : Float) : String := NumeralStyle.line.write x

/-- The first term of a line. -/
def firstTerm (name : String) (coefficient : Float) : String := number coefficient ++ " " ++ name

/-- A later term of a line. -/
def laterTerm (name : String) (coefficient : Float) : String :=
  if coefficient < 0 then " - " ++ number (-coefficient) ++ " " ++ name
  else " + " ++ number coefficient ++ " " ++ name

/-- The left side of a line. -/
def leftSide : List (String × Float) → String
  | [] => "0"
  | (name, coefficient) :: rest =>
    firstTerm name coefficient
      ++ String.join (rest.map fun (name, coefficient) => laterTerm name coefficient)

/-- The whole line. -/
def render (equation : Equation Float) (table : SymbolTable) : String :=
  leftSide (equation.terms table) ++ " " ++ equation.relation.spelling ++ " "
    ++ number equation.bound

end Equation

end LinearSystem
