/-!
The relations that an equation can state between its two sides.
-/
namespace LinearSystem

/-- Equality, and the two inequalities that admit it. -/
inductive Relation where
  | equal
  | atMost
  | atLeast
  deriving DecidableEq, Repr

/-- The operator that stands for a relation in output. -/
def Relation.spelling : Relation → String
  | equal => "="
  | atMost => "<="
  | atLeast => ">="

end LinearSystem
