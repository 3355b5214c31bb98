import LinearSystem.Token.Basic
/-!
The order in which kinds of token may follow each other. A list of equations is checked token by
token: besides the token and the one before it, only two facts matter, whether the current term has
its variable and whether the current equation has its relational operator.
-/
namespace LinearSystem.Grammar

/-- How a token can break the grammar. -/
inductive Violation where
  | commaAtStart
  | commaAtEnd
  | equationMissing
  | relationMissing
  | relationRepeated
  | leftSideMissing
  | rightSideMissingAtComma
  | rightSideMissingAtEnd
  | termMissing
  | signAtEnd
  | factorMissing
  | variableRepeated
  deriving DecidableEq, Repr

namespace Violation

/-- The wording of a violation. -/
def message : Violation → String
  | commaAtStart => "Unexpected comma at the beginning of the equation"
  | commaAtEnd => "Unexpected comma at the end of the equation"
  | equationMissing => "Unexpected comma, equation missed"
  | relationMissing => "Equation must contain a relational operator"
  | relationRepeated => "Equation must contain only one relational operator"
  | leftSideMissing => "Unexpected relational operator, left side of the equation is missed"
  | rightSideMissingAtComma => "Unexpected comma, right side of the equation is missed"
  | rightSideMissingAtEnd => "Unexpected EOF, right side of the equation is missed"
  | termMissing => "Unexpected binary operator, term missed"
  | signAtEnd => "Unexpected binary operator at the end of the equation"
  | factorMissing => "Unexpected multiplication operator, term missed"
  | variableRepeated => "Term must contain no more than one variable"

/-- A sign that nothing follows is itself to blame; every other violation is blamed on the token
that shows it. -/
def blamesPrevious (violation : Violation) : Bool := violation = signAtEnd

end Violation

/-- What has been seen of the current term and of the current equation. -/
structure Seen where
  hasVariable : Bool
  hasRelation : Bool
  deriving DecidableEq, Repr

namespace Seen

/-- Before the first token. -/
def nothing : Seen := ⟨false, false⟩

/-- The rules for the end of the source. -/
def atEnd (seen : Seen) (previous : Kind) : Except Violation Seen :=
  if previous = .comma then .error .commaAtEnd
  else if previous ≠ .startOfInput ∧ !seen.hasRelation then .error .relationMissing
  else if previous.isSign then .error .signAtEnd
  else if previous.isRelation then .error .rightSideMissingAtEnd
  else .ok seen

/-- The rules for a plus or minus, which starts a term. -/
def atSign (seen : Seen) (previous : Kind) : Except Violation Seen :=
  if previous.isSign then .error .termMissing else .ok { seen with hasVariable := false }

/-- The rules for an explicit product. -/
def atTimes (seen : Seen) (previous : Kind) : Except Violation Seen :=
  if previous = .times then .error .factorMissing else .ok seen

/-- The rules for a relational operator, which starts the right side. -/
def atRelation (seen : Seen) (previous : Kind) : Except Violation Seen :=
  if seen.hasRelation then .error .relationRepeated
  else if previous.isSign then .error .termMissing
  else if previous = .startOfInput ∨ previous = .comma then .error .leftSideMissing
  else .ok ⟨false, true⟩

/-- The rule for a variable. -/
def atName (seen : Seen) : Except Violation Seen :=
  if seen.hasVariable then .error .variableRepeated else .ok { seen with hasVariable := true }

/-- The rules for a comma, which starts an equation. -/
def atComma (seen : Seen) (previous : Kind) : Except Violation Seen :=
  if previous = .startOfInput then .error .commaAtStart
  else if previous = .comma then .error .equationMissing
  else if !seen.hasRelation then .error .relationMissing
  else if previous.isSign then .error .signAtEnd
  else if previous.isRelation then .error .rightSideMissingAtComma
  else .ok nothing

/-- Takes one more kind after the previous one. -/
def step (seen : Seen) (previous : Kind) : Kind → Except Violation Seen
  | .startOfInput | .coefficient => .ok seen
  | .endOfInput => seen.atEnd previous
  | .plus | .minus => seen.atSign previous
  | .times => seen.atTimes previous
  | .relation _ => seen.atRelation previous
  | .name => seen.atName
  | .comma => seen.atComma previous

end Seen

end LinearSystem.Grammar
