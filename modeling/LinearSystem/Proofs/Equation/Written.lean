import LinearSystem.Proofs.Decimal.Reading
import LinearSystem.Proofs.Grammar.Language
import Mathlib.Algebra.BigOperators.Group.List.Basic
import Mathlib.Algebra.Field.Rat
/-!
What a list of equations says as it is written.

A text is cut at its commas, each part at its relational operator, and each side at its signs. A
term is worth the product of its numbers and of the value of its variable, with its sign; a side the
sum of its terms; and a part holds if its sides are in its relation. Nothing here knows how
equations are built.
-/
namespace LinearSystem

def Relation.Holds : Relation → ℚ → ℚ → Prop
  | equal, first, second => first = second
  | atMost, first, second => first ≤ second
  | atLeast, first, second => first ≥ second

def Decimal.toRat (decimal : Decimal) : ℚ := decimal.mantissa * (10 : ℚ) ^ decimal.exponent

/-- The number that a text says, without rounding. -/
def Numeral.readRat? (text : String) : Option ℚ :=
  match ofText? text.toList with
  | some (finite negative magnitude) =>
    some (if negative then -magnitude.toRat else magnitude.toRat)
  | _ => none

/-- Of a numeral without a sign, the number is what its digits and its exponent stand for. -/
theorem Numeral.readRat?_parts {whole fraction exponent : List Char}
    (parts : Literal.HasParts whole fraction exponent) :
    readRat? (.ofList (whole ++ fraction ++ exponent)) =
      some (Literal.exactValue whole fraction exponent) := by
  rw [readRat?, String.toList_ofList, ofText?_parts parts, Literal.exactValue_eq]
  rfl

/-- A kind and a text, for each token. -/
abbrev Items := List (Kind × String)

namespace Items

/-- The parts between the commas; nothing has no part. -/
def relations (items : Items) : List Items :=
  if items = [] then [] else items.splitOnP fun item => item.1 == .comma

theorem mem_of_mem_relations {items part : Items} (among : part ∈ items.relations)
    {item : Kind × String} (member : item ∈ part) : item ∈ items := by
  by_cases empty : items = []
  · simp [relations, empty] at among
  · rw [relations, if_neg empty] at among
    exact (mem_of_mem_splitOnP among member).1

/-- The parts of a list of equations are equations. -/
theorem isEquation_of_mem_relations {items part : Items}
    (list : Grammar.IsEquationList (items.map Prod.fst)) (among : part ∈ items.relations) :
    Grammar.IsEquation (part.map Prod.fst) := by
  by_cases empty : items = []
  · simp [relations, empty] at among
  · rw [relations, if_neg empty] at among
    apply list.resolve_left (by simpa using empty)
    rw [List.splitOn_eq_splitOnP, splitOnP_map]
    exact List.mem_map_of_mem among

/-- What stands before the relational operator. -/
def left (items : Items) : Items := items.takeWhile fun item => !item.1.isRelation

/-- What stands after the relational operator. -/
def right (items : Items) : Items := (items.dropWhile fun item => !item.1.isRelation).tail

/-- The relation that the first relational operator states. -/
def relation? (items : Items) : Option Relation := items.findSome? fun item => item.1.relation?

/-- What stands before the first sign, and the runs after each of the signs, which are negative
after a minus. -/
def runs : Items → Items × List (Bool × Items)
  | [] => ([], [])
  | (kind, text) :: rest =>
    let (run, others) := runs rest
    if kind.isSign then ([], (kind = .minus, run) :: others) else ((kind, text) :: run, others)

/-- The terms of a side. Before a leading sign there is none. -/
def terms (side : Items) : List (Bool × Items) :=
  match runs side with
  | ([], term :: others) => term :: others
  | (run, others) => (false, run) :: others

/-- A term with a number or a variable. -/
def HasFactor (run : Items) : Prop := ∃ item ∈ run, item.1 = .coefficient ∨ item.1 = .name

variable (assignment : String → ℚ)

/-- What one token multiplies its term by. -/
def factor : Kind × String → ℚ
  | (.coefficient, text) => (Numeral.readRat? text).getD 0
  | (.name, text) => assignment text
  | _ => 1

def product (run : Items) : ℚ := (run.map (factor assignment)).prod

def termValue : Bool × Items → ℚ
  | (negative, run) => (if negative then -1 else 1) * product assignment run

def sideValue (side : Items) : ℚ := (side.terms.map (termValue assignment)).sum

/-- Whether a part is true. -/
def Holds (items : Items) : Prop :=
  ∃ relation, items.relation? = some relation ∧
    relation.Holds (sideValue assignment items.left) (sideValue assignment items.right)

end Items

end LinearSystem
