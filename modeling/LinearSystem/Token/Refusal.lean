import LinearSystem.Text.CharClass
/-!
Refusals: why a text is not the spelling of any tokens, and how far into it the fault lies.
-/
namespace LinearSystem

/-- Why the front of a text is no lexeme. -/
inductive LexicalCause where
  | expectedDigit (found : Option Char)
  | digitAfterZero (found : Char)
  | danglingCharacter (found : Char)
  | outOfRange (literal : String)
  | lessThan
  | greaterThan
  | invalidCharacter (found : Char)
  deriving DecidableEq, Repr

/-- The wording of a cause. -/
def LexicalCause.message : LexicalCause → String
  | expectedDigit found =>
    "Unexpected character, expected digit but got: " ++ Text.describe found
  | digitAfterZero found =>
    "Invalid coefficient, unexpected digit after 0: " ++ Text.describe (some found)
  | danglingCharacter found =>
    "Invalid coefficient, expected digit but got: " ++ Text.describe (some found)
  | outOfRange literal => "Invalid coefficient, value out of range: " ++ literal
  | lessThan => "Unexpected character, less than operator is not allowed"
  | greaterThan => "Unexpected character, greater than operator is not allowed"
  | invalidCharacter found => "Invalid character: " ++ Text.describe (some found)

/-- A refusal, with the number of characters before the one at fault. -/
structure Refusal where
  after : Nat
  cause : LexicalCause
  deriving DecidableEq, Repr

end LinearSystem
