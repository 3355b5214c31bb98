import LinearSystem.Location
import LinearSystem.Text.Lines
/-!
Diagnostics: what a reader of a source is told when it is refused. A diagnostic names the stage that
refused, the place and the reason, and carries the source so that the line can be quoted.
-/
namespace LinearSystem

/-- What refused a source: its spelling, the order of its tokens, or a chain of tokens that does
not hold together. -/
inductive Stage where
  | lexical
  | grammar
  | integrity
  deriving DecidableEq, Repr

/-- The words that introduce a diagnostic of a stage. -/
def Stage.title : Stage → String
  | lexical => "lexical error"
  | grammar => "lint error"
  | integrity => "token chain integrity fault"

/-- A located message about a source. -/
structure Diagnostic where
  stage : Stage
  source : String
  location : Location
  message : String
  deriving DecidableEq, Repr

namespace Diagnostic

/-- The message with its place behind it. -/
def summary (diagnostic : Diagnostic) : String :=
  diagnostic.message ++ " at " ++ diagnostic.location.render

/-- The stage and the place in front of the message. -/
def describe (diagnostic : Diagnostic) : String :=
  diagnostic.stage.title ++ " at " ++ diagnostic.location.render ++ ": " ++ diagnostic.message

/-- A broken chain is no fault of the source. -/
def blamesInput (diagnostic : Diagnostic) : Bool := diagnostic.stage ≠ .integrity

/-- The line that the diagnostic quotes. -/
def quotedLine (diagnostic : Diagnostic) : String :=
  Text.lineNumbered diagnostic.source diagnostic.location.line

/-- The blanks before the caret: one for the margin of the quoted line, and one for each character
before the column. -/
def indent (diagnostic : Diagnostic) : String :=
  String.ofList (List.replicate (max diagnostic.location.column 1) ' ')

/-- Four lines: the message, the place, the quoted line, and a caret under the column. -/
def report (diagnostic : Diagnostic) : String :=
  "error: " ++ diagnostic.message ++ "\n"
    ++ "at line " ++ toString diagnostic.location.line
    ++ ", column " ++ toString diagnostic.location.column ++ "\n"
    ++ " " ++ diagnostic.quotedLine ++ "\n"
    ++ diagnostic.indent ++ "^\n"

end Diagnostic

end LinearSystem
