import LinearSystem.Diagnostic
import LinearSystem.Equation.Builder
import LinearSystem.Grammar.Check
import LinearSystem.Token.Stream
/-!
Reading a source: it becomes a chain of tokens, the chain is checked, and a checked chain
becomes the equations that it states. A refusal at any point is a diagnostic and leaves the table of
variables as it was.
-/
namespace LinearSystem

/-- The diagnostic of a refused spelling. -/
def LexicalError.diagnostic (error : LexicalError) (source : String) : Diagnostic where
  stage := .lexical
  source := source
  location := error.place.location
  message := error.cause.message

/-- The stage that an error of a check belongs to. -/
def CheckError.stage : CheckError → Stage
  | grammar .. => .grammar
  | integrity _ => .integrity

/-- The diagnostic of a chain that is not accepted. -/
def CheckError.diagnostic (error : CheckError) (source : String) : Diagnostic where
  stage := error.stage
  source := source
  location := error.location
  message := error.message

namespace Source

/-- The chain of a source, if it is well formed. -/
def chain (source : String) : Except Diagnostic Chain :=
  match Chain.ofSource source with
  | .error error => .error (error.diagnostic source)
  | .ok chain =>
    match chain.check with
    | .error error => .error (error.diagnostic source)
    | .ok () => .ok chain

/-- Reads a source, its numerals by a reader of choice. -/
def parseWith {α : Type} [OfNat α 0] [OfNat α 1] [Add α] [Sub α] [Mul α] [Neg α] [BEq α]
    (read : String → Option α) (table : SymbolTable) (source : String) :
    Except Diagnostic (List (Equation α)) × SymbolTable :=
  match chain source with
  | .error diagnostic => (.error diagnostic, table)
  | .ok chain =>
    let (equations, table) := chain.equations read table
    (.ok equations, table)

/-- Reads a source of equations with floating-point coefficients. -/
def parse (table : SymbolTable) (source : String) :
    Except Diagnostic (List (Equation Float)) × SymbolTable :=
  parseWith Numeral.readFloat? table source

end Source

end LinearSystem
