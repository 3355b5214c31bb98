import LinearSystem.Decimal.Layout
import LinearSystem.Equation.Basic
import LinearSystem.Text.CharClass
/-!
Equations as JSON text, indented by two spaces a level. An equation is an object of its relation,
its variables and its bound; the variables are the members of an object, in the order of their names
as they are written. A number that JSON has no form for is written `null`.
-/
namespace LinearSystem

/-- Numbers in JSON text have a digit after the point, or an exponent below a hundred-thousandth and
from ten quadrillions on; of two shortest decimals that are equally near the even one is written. -/
def NumeralStyle.json : NumeralStyle where
  tie := .toEven
  isPositional := fun power => -5 ≤ power && power < 16
  wholeMark := ".0"
  infinity := "null"
  minusInfinity := "null"
  notANumber := "null"

namespace Json

/-- What one character becomes between the quotes: only quotes, backslashes and control characters
are escaped. -/
def escapeChar (c : Char) : String :=
  match c with
  | '"' => "\\\""
  | '\\' => "\\\\"
  | '\x08' => "\\b"
  | '\t' => "\\t"
  | '\n' => "\\n"
  | '\x0c' => "\\f"
  | '\r' => "\\r"
  | _ => if c.toNat < 0x20 then "\\u" ++ Text.paddedHex 4 c.toNat else String.singleton c

/-- The text between the quotes. -/
def escape (text : String) : String := String.join (text.toList.map escapeChar)

/-- A line end and the indentation of a level. -/
def newLine (level : Nat) : String := "\n" ++ String.ofList (List.replicate (2 * level) ' ')

/-- A member of an object, by its escaped name. -/
def member (name value : String) : String := "\"" ++ name ++ "\": " ++ value

/-- Items between two brackets, each on a line of its own; without items only the brackets. -/
def bracketed (opening closing : String) (level : Nat) (items : List String) : String :=
  if items.isEmpty then opening ++ closing
  else
    opening ++ newLine (level + 1) ++ ("," ++ newLine (level + 1)).intercalate items
      ++ newLine level ++ closing

end Json

namespace Equation

/-- The variables by their escaped names, in ascending order of these. -/
def jsonTerms (equation : Equation Float) (table : SymbolTable) : List (String × Float) :=
  Text.sortByName
    ((equation.namedTerms table).map fun (name, value) => (Json.escape name, value))

/-- One equation, at a level of indentation. -/
def json (equation : Equation Float) (table : SymbolTable) (level : Nat) : String :=
  let terms := (equation.jsonTerms table).map fun (name, value) =>
    Json.member name (NumeralStyle.json.write value)
  Json.bracketed "\x7b" "\x7d" level
    [Json.member "kind" ("\"" ++ equation.relation.spelling ++ "\""),
      Json.member "variables" (Json.bracketed "\x7b" "\x7d" (level + 1) terms),
      Json.member "bound" (NumeralStyle.json.write equation.bound)]

/-- A list of equations. -/
def jsonList (equations : List (Equation Float)) (table : SymbolTable) : String :=
  Json.bracketed "[" "]" 0 (equations.map fun equation => equation.json table 1)

end Equation

end LinearSystem
