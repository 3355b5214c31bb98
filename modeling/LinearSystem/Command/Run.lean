import LinearSystem.Command.Options
import LinearSystem.Equation.Json
import LinearSystem.Equation.Printer
import LinearSystem.Source
/-!
Running the command on a source: what it writes and the status it exits with. The status is zero for
success and one for a source that is refused or cannot be read; two is left for wrong arguments and
for chains of tokens that do not hold together.
-/
namespace LinearSystem.Command

/-- What a run leaves behind. -/
structure Outcome where
  exitCode : Nat
  output : String
  errors : String
  deriving DecidableEq, Repr

/-- Why a source could not be read. -/
inductive ReadError where
  | notFound
  | notText
  | other (description : String)
  deriving DecidableEq, Repr

/-- The wording of a reading error. -/
def ReadError.message : ReadError → String
  | notFound => "No such file or directory (os error 2)"
  | notText => "stream did not contain valid UTF-8"
  | other description => description

/-- The text of a source given in bytes, which must be UTF-8. -/
def decodeSource (bytes : ByteArray) : Except ReadError String :=
  match String.fromUTF8? bytes with
  | some text => .ok text
  | none => .error .notText

namespace Outcome

/-- A success that writes a text. -/
def success (output : String) : Outcome := ⟨0, output, ""⟩

/-- A source that could not be read. -/
def unreadable (error : ReadError) : Outcome := ⟨1, "", "error: " ++ error.message ++ "\n"⟩

/-- A source that was refused after something had been written. -/
def refused (output : String) (diagnostic : Diagnostic) : Outcome :=
  ⟨if diagnostic.blamesInput then 1 else 2, output, diagnostic.report⟩

end Outcome

/-- The name and the number of this version. -/
def version : Outcome := .success "lineq 0.1.0\n"

/-- Texts on a line each. -/
def unlines (texts : List String) : String := String.join (texts.map (· ++ "\n"))

/-- The tokens of a source on a line each, up to the end or a refusal. -/
def listTokens (source : String) : Outcome :=
  let items := (TokenStream.ofSource source).toList
  let written := unlines (items.filterMap fun item => item.toOption.map Token.render)
  match items.findSome? fun item => match item with
    | .error error => some error
    | .ok _ => none with
  | some error => .refused written (error.diagnostic source)
  | none => .success written

/-- Checks a source and says no more than that it is well formed. -/
def checkSource (source : String) : Outcome :=
  match Source.chain source with
  | .ok _ => .success "ok\n"
  | .error diagnostic => .refused "" diagnostic

/-- The name of the variable whose equation is an objective. -/
def objectiveName : String := "Z"

/-- Equations on a line each. If the first has the objective's variable, it is set off from the
others, which are its constraints. -/
def listEquations (table : SymbolTable) : List (Equation Float) → String
  | [] => ""
  | first :: others =>
    if first.contains table objectiveName then
      unlines ["objective:", "  " ++ first.render table, "constraints:"]
        ++ unlines (others.map fun equation => "  " ++ equation.render table)
    else unlines ((first :: others).map fun equation => equation.render table)

/-- The equations of a source, in a format. -/
def normalize (format : Format) (source : String) : Outcome :=
  match Source.parse .empty source with
  | (.error diagnostic, _) => .refused "" diagnostic
  | (.ok equations, table) =>
    match format with
    | .text => .success (listEquations table equations)
    | .json => .success (Equation.jsonList equations table ++ "\n")

/-- Carries out a task on a source. -/
def Task.run (task : Task) (source : String) : Outcome :=
  match task with
  | .equations format => normalize format source
  | .tokens => listTokens source
  | .check => checkSource source

/-- Carries out a task on a source that may not have been read. -/
def Task.runOn (task : Task) : Except ReadError String → Outcome
  | .ok source => task.run source
  | .error error => .unreadable error

end LinearSystem.Command
