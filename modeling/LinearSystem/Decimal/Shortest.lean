import LinearSystem.Binary64
/-!
The shortest numeral of a floating-point number: the fewest digits that read back to the number,
and of the decimals with so many digits the one nearest to it.

The search lays ever finer decimal grids under the number and tries its two neighbours on each. It
asks the reader itself whether a neighbour reads back, so what it finds does. Seventeen digits are
enough for every number; were they not, the exact decimal value would be the answer.
-/
namespace LinearSystem

/-- Which of two equally near decimals is chosen. -/
inductive Tie where
  | up
  | toEven
  deriving DecidableEq, Repr

namespace Decimal

/-- The nearer of the two neighbours of `n / d` on a grid, `below` being the lower one. -/
def nearer (tie : Tie) (n d below : Nat) : Nat :=
  if 2 * (n % d) < d then below
  else if d < 2 * (n % d) then below + 1
  else match tie with
    | .up => below + 1
    | .toEven => if below % 2 = 0 then below else below + 1

/-- The neighbour on the grid of step `10 ^ exponent` that reads back to a pattern; the nearer one
if both do. -/
def onGrid? (tie : Tie) (bits : Nat) (exponent : Int) : Option Decimal :=
  let (n, d) := divTenPow (Binary64.ratio bits) exponent
  let below := n / d
  let readsBack (mantissa : Nat) : Bool := Binary64.nearest { mantissa, exponent } == bits
  match readsBack below, readsBack (below + 1) with
  | true, true => some { mantissa := nearer tie n d below, exponent }
  | true, false => some { mantissa := below, exponent }
  | false, true => some { mantissa := below + 1, exponent }
  | false, false => none

/-- The first success on a number of grids, each ten times finer than the one before. -/
def onGrids? (tie : Tie) (bits : Nat) : (grids : Nat) → (exponent : Int) → Option Decimal
  | 0, _ => none
  | grids + 1, exponent =>
    match onGrid? tie bits exponent with
    | some decimal => some decimal
    | none => onGrids? tie bits grids (exponent - 1)

/-- An exponent of a power of ten that a positive ratio does not exceed, at most tenfold too
large. -/
def coarsestExponent (n d : Nat) : Int :=
  if d ≤ n then digitCount (n / d) else 1 - (digitCount (d / n) : Int)

/-- The exact value of a finite pattern: a negative power of two is one of five with the point
moved. -/
def exact (bits : Nat) : Decimal :=
  let exponent := Binary64.exponent bits
  if 0 ≤ exponent then { mantissa := Binary64.significand bits <<< exponent.toNat, exponent := 0 }
  else { mantissa := Binary64.significand bits * Nat.pow 5 (-exponent).toNat, exponent }

/-- The shortest decimal that reads back to a finite pattern. -/
def shortest (tie : Tie) (bits : Nat) : Decimal :=
  if bits = 0 then { mantissa := 0, exponent := 0 }
  else
    let (n, d) := Binary64.ratio bits
    -- Eighteen grids reach from no digit of the number to its seventeenth.
    (onGrids? tie bits 18 (coarsestExponent n d)).getD (exact bits)

end Decimal

/-- The shortest numeral that reads back to a floating-point number. -/
def Numeral.ofFloat (tie : Tie) (x : Float) : Numeral :=
  let bits := Binary64.magnitudeBits x
  if bits < Binary64.infinityBits then
    .finite (Binary64.isNegative x) (Decimal.shortest tie bits)
  else if bits = Binary64.infinityBits then .infinite (Binary64.isNegative x)
  else .nan

/-- What reads back on some grid reads back. -/
theorem Decimal.nearest_of_onGrid? {tie : Tie} {bits : Nat} {exponent : Int} {decimal : Decimal}
    (found : onGrid? tie bits exponent = some decimal) : Binary64.nearest decimal = bits := by
  simp only [onGrid?] at found
  split at found
  next below above =>
    simp only [beq_iff_eq] at below above
    cases found
    unfold nearer
    split
    · exact below
    · split
      · exact above
      · cases tie with
        | up => exact above
        | toEven => dsimp only; split <;> assumption
  next below _ => cases found; simpa using below
  next _ above => cases found; simpa using above
  next => cases found

/-- What the search finds reads back. -/
theorem Decimal.nearest_of_onGrids? {tie : Tie} {bits grids : Nat} {exponent : Int}
    {decimal : Decimal} (found : onGrids? tie bits grids exponent = some decimal) :
    Binary64.nearest decimal = bits := by
  induction grids generalizing exponent with
  | zero => cases found
  | succ grids ih =>
    simp only [onGrids?] at found
    split at found
    next success => cases found; exact nearest_of_onGrid? success
    next => exact ih found

end LinearSystem
