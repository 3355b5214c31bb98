import LinearSystem.Command.Run
/-!
Scenarios: sources with the answers that they are expected to have. A run reads each source anew and
writes whether its answer is the expected one.
-/
namespace LinearSystem

/-- A source and its expected answer. -/
structure Scenario where
  source : String
  expected : String
  deriving DecidableEq, Repr

namespace Scenario

/-- The constraints and the objective of a small production problem. -/
def production : List Scenario := [
  ⟨"6x_1 + 4x_2 <= 24", "6 x_1 + 4 x_2 <= 24"⟩,
  ⟨"x_1 + 2x_2 <= 6", "1 x_1 + 2 x_2 <= 6"⟩,
  ⟨"Z = 5x_1 + 4x_2", "1 Z - 5 x_1 - 4 x_2 = 0"⟩,
  ⟨"6x_1 + 4x_2 <= 24,\r\n x_1 + 2x_2 <= 6,\n Z = 5x_1 + 4x_2",
    "6 x_1 + 4 x_2 <= 24; 1 x_1 + 2 x_2 <= 6; 1 Z - 5 x_1 - 4 x_2 = 0"⟩]

/-- Terms on both sides, repeated variables, and every spelling of numbers and relations. -/
def normalForms : List Scenario := [
  ⟨"x_1 - x_1 <= 0", "0 x_1 <= 0"⟩,
  ⟨"2x + 3 >= x - 1", "1 x >= -4"⟩,
  ⟨"\uFEFF5 x_1\n\n+ 3x_2 - 4 * _y3 2 - 8 XXXX_7\n\n ≤ 19 * .5",
    "-8 XXXX_7 - 8 _y3 + 5 x_1 + 3 x_2 <= 9.5"⟩,
  ⟨"a == 1e2", "1 a = 100"⟩,
  ⟨"", ""⟩]

/-- Sources that are refused. -/
def refusals : List Scenario := [
  ⟨"x < 1", "error: Unexpected character, less than operator is not allowed"⟩,
  ⟨"x_1 <= 05", "error: Invalid coefficient, unexpected digit after 0: 5"⟩,
  ⟨"x <= 5.", "error: Unexpected character, expected digit but got: <EOF>"⟩,
  ⟨"x <= 1,", "error: Unexpected comma at the end of the equation"⟩,
  ⟨", x_1 <= 3", "error: Unexpected comma at the beginning of the equation"⟩,
  ⟨"x y <= 1", "error: Term must contain no more than one variable"⟩,
  ⟨"x <= 1 <= 2", "error: Equation must contain only one relational operator"⟩]

/-- All scenarios, in the order in which they are run. -/
def all : List Scenario := production ++ normalForms ++ refusals

/-- The result of reading the source. -/
def result (scenario : Scenario) : Except Diagnostic (List (Equation Float)) × SymbolTable :=
  Source.parse .empty scenario.source

/-- The equations of the source on one line, or the message of its refusal. -/
def answer (scenario : Scenario) : String :=
  match scenario.result with
  | (.ok equations, table) => "; ".intercalate (equations.map fun equation => equation.render table)
  | (.error diagnostic, _) => "error: " ++ diagnostic.message

/-- Whether the answer is the expected one. -/
def passes (scenario : Scenario) : Bool := scenario.answer = scenario.expected

/-- The report of a refused source; nothing for any other. -/
def report (scenario : Scenario) : String :=
  match scenario.result with
  | (.ok _, _) => ""
  | (.error diagnostic, _) => diagnostic.report

/-- What a run writes of one scenario. -/
def transcript (scenario : Scenario) : String :=
  if scenario.passes then "Test passed: " ++ Text.quote scenario.source ++ "\n\n"
  else
    "Test failed: " ++ Text.quote scenario.source ++ "\n"
      ++ "   Expected: " ++ scenario.expected ++ "\n"
      ++ "   Got:      " ++ scenario.answer ++ "\n"
      ++ scenario.report ++ "\n"

/-- Runs scenarios one after the other; a failure among them makes the run fail. -/
def run (scenarios : List Scenario) : Command.Outcome :=
  let failed := scenarios.countP fun scenario => !scenario.passes
  let written := String.join (scenarios.map transcript)
  if failed = 0 then .success written
  else ⟨1, written ++ toString failed ++ " test(s) failed\n", ""⟩

end Scenario

end LinearSystem
