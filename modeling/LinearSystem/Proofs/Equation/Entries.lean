import LinearSystem.Proofs.Equation.Naming
import LinearSystem.Proofs.Equation.Written
/-!
What the terms of an equation add to it, number by number.

A term is worth the product of its numbers, taken from left to right and from its sign on, and adds
this, on the right side with the other sign, to its variable or to the constants
(`Items.contributions`). Nothing is assumed of the operations on numbers, so the order in which they
are carried out matters. Entering amounts one by one into a form and a bound leaves at each variable
the sum of its amounts and in the bound what is left after its own (`LinearForm.coefficient?_enter`,
`LinearForm.bound_enter`).
-/
namespace LinearSystem

variable {α κ : Type}

/-! ### Amounts -/

/-- The amounts that are entered under a key, in order. -/
def amounts [DecidableEq κ] (key : Option κ) (entries : List (Option κ × α)) : List α :=
  entries.filterMap fun entry => if entry.1 = key then some entry.2 else none

theorem amounts_cons [DecidableEq κ] (key : Option κ) (entry : Option κ × α)
    (rest : List (Option κ × α)) :
    amounts key (entry :: rest) =
      if entry.1 = key then entry.2 :: amounts key rest else amounts key rest := by
  rw [amounts, List.filterMap_cons]
  split <;> simp_all [amounts]

theorem exists_entry_of_amounts [DecidableEq κ] {key : Option κ} {entries : List (Option κ × α)}
    (nonempty : amounts key entries ≠ []) : ∃ entry ∈ entries, entry.1 = key := by
  obtain ⟨amount, member⟩ := List.exists_mem_of_ne_nil _ nonempty
  obtain ⟨entry, among, found⟩ := List.mem_filterMap.mp member
  refine ⟨entry, among, ?_⟩
  by_contra other
  simp [other] at found

/-- Keys can be renamed if none of them is mixed up with the one that is asked for. -/
theorem amounts_map {ι : Type} [DecidableEq κ] [DecidableEq ι] (rename : Option κ → Option ι)
    (key : Option κ) {entries : List (Option κ × α)}
    (apart : ∀ entry ∈ entries, rename entry.1 = rename key ↔ entry.1 = key) :
    amounts (rename key) (entries.map fun entry => (rename entry.1, entry.2)) =
      amounts key entries := by
  rw [amounts, amounts, List.filterMap_map]
  apply List.filterMap_congr
  intro entry among
  simp [apart entry among]

namespace LinearForm

/-! ### Entering amounts -/

theorem lookup_alter (change : Option α → α) (symbol other : Symbol) (terms : List (Symbol × α)) :
    (alter change symbol terms).lookup other =
      if other = symbol then some (change (terms.lookup symbol)) else terms.lookup other := by
  have apart {first second : Symbol} (differs : ¬first = second) : (first == second) = false :=
    beq_eq_false_iff_ne.mpr differs
  induction terms with
  | nil => by_cases same : other = symbol <;> simp [alter, List.lookup_cons, same, apart]
  | cons term rest ih =>
    obtain ⟨first, value⟩ := term
    by_cases found : first = symbol
    · subst found
      by_cases same : other = first <;> simp [alter, List.lookup_cons, same, apart]
    · rw [alter, if_neg found, List.lookup_cons, List.lookup_cons, List.lookup_cons, ih,
        apart (Ne.symm found)]
      by_cases same : other = symbol
      · subst same
        simp [apart (Ne.symm found)]
      · simp [same]

variable [OfNat α 0] [Add α]

theorem coefficient?_add (form : LinearForm α) (symbol other : Symbol) (value : α) :
    (form.add symbol value).coefficient? other =
      if other = symbol then some ((form.coefficient? symbol).getD 0 + value)
      else form.coefficient? other :=
  lookup_alter _ symbol other form.terms

variable [Sub α]

/-- Adds an amount to a variable, or takes it from the bound. -/
def enter (state : LinearForm α × α) (entry : Option Symbol × α) : LinearForm α × α :=
  match entry.1 with
  | some symbol => (state.1.add symbol entry.2, state.2)
  | none => (state.1, state.2 - entry.2)

/-- A variable has the sum of its amounts, if it has any, on top of what it had. -/
theorem coefficient?_enter (state : LinearForm α × α) (entries : List (Option Symbol × α))
    (symbol : Symbol) :
    (entries.foldl enter state).1.coefficient? symbol =
      if amounts (some symbol) entries = [] then state.1.coefficient? symbol
      else some ((amounts (some symbol) entries).foldl (· + ·)
        ((state.1.coefficient? symbol).getD 0)) := by
  induction entries generalizing state with
  | nil => rfl
  | cons entry rest ih =>
    obtain ⟨key, value⟩ := entry
    rw [List.foldl_cons, ih, amounts_cons]
    cases key with
    | none => simp [enter]
    | some other =>
      by_cases same : symbol = other
      · subst same
        by_cases last : amounts (some symbol) rest = [] <;>
          simp [enter, coefficient?_add, last]
      · have apart : ¬other = symbol := fun equal => same equal.symm
        simp [enter, coefficient?_add, same, apart]

/-- The bound is left with what its amounts leave of it. -/
theorem bound_enter (state : LinearForm α × α) (entries : List (Option Symbol × α)) :
    (entries.foldl enter state).2 = (amounts none entries).foldl (· - ·) state.2 := by
  induction entries generalizing state with
  | nil => rfl
  | cons entry rest ih =>
    obtain ⟨key, value⟩ := entry
    rw [List.foldl_cons, ih, amounts_cons]
    cases key <;> simp [enter]

end LinearForm

namespace Items

/-! ### Terms with their signs -/

/-- The numbers of a run, in order. A coefficient whose text says no number is passed over. -/
def numbers (read : String → Option α) (run : Items) : List α :=
  run.filterMap fun item => if item.1 = .coefficient then read item.2 else none

/-- The first name of a run. -/
def name? (run : Items) : Option String :=
  run.findSome? fun item => if item.1 = .name then some item.2 else none

/-- The terms of a side, each with the sign in front of it, which is true for a minus. What stands
before the first sign has none. -/
def signedTerms (side : Items) : List (Option Bool × Items) :=
  (none, (runs side).1) :: (runs side).2.map fun term => (some term.1, term.2)

theorem numbers_coefficient (read : String → Option α) (text : String) (run : Items) :
    numbers read ((.coefficient, text) :: run) = (read text).toList ++ numbers read run := by
  cases said : read text <;> simp [numbers, said]

theorem numbers_other (read : String → Option α) {kind : Kind} (other : kind ≠ .coefficient)
    (text : String) (run : Items) : numbers read ((kind, text) :: run) = numbers read run := by
  simp [numbers, other]

theorem name?_name (text : String) (run : Items) : name? ((.name, text) :: run) = some text := by
  simp [name?]

theorem name?_other {kind : Kind} (other : kind ≠ .name) (text : String) (run : Items) :
    name? ((kind, text) :: run) = name? run := by
  simp [name?, other]

variable [OfNat α 0] [OfNat α 1] [Mul α] [Neg α] [BEq α]

/-- The number that a sign stands for. -/
def unit (negative : Bool) : α := if negative then -1 else 1

/-- What a term is worth: the product of its numbers, from the one of its sign on. -/
def worth (read : String → Option α) (term : Option Bool × Items) : α :=
  (numbers read term.2).foldl (· * ·) (unit (term.1.getD false))

/-- What a term adds to its equation, and to which variable, if to one. Without a sign, a number and
a variable it adds nothing, and neither does a term that is worth zero. -/
def contribution? (read : String → Option α) (right : Bool) (term : Option Bool × Items) :
    Option (Option String × α) :=
  if term.1 = none ∧ numbers read term.2 = [] ∧ name? term.2 = none then none
  else if worth read term == 0 then none
  else some (name? term.2, if right then -worth read term else worth read term)

/-- What the terms on both sides add, in the order in which they are written. -/
def contributions (read : String → Option α) (part : Items) : List (Option String × α) :=
  part.left.signedTerms.filterMap (contribution? read false) ++
    part.right.signedTerms.filterMap (contribution? read true)

end Items

/-- An equation is the sum of what is written in a part: it has the only relation of the part, each
name to which something is added has the sum of this, in order and from zero on, and what is added
to no name is taken from zero in order. -/
structure Equation.SumsUp [OfNat α 0] [OfNat α 1] [Add α] [Sub α] [Mul α] [Neg α] [BEq α]
    (read : String → Option α) (part : Items) (table : SymbolTable) (equation : Equation α) :
    Prop where
  relation : part.filterMap (fun item => item.1.relation?) = [equation.relation]
  distinct : ((equation.namedTerms table).map Prod.fst).Nodup
  terms : ∀ name value, (name, value) ∈ equation.namedTerms table ↔
    amounts (some name) (part.contributions read) ≠ [] ∧
      value = (amounts (some name) (part.contributions read)).foldl (· + ·) 0
  bound : equation.bound = (amounts none (part.contributions read)).foldl (· - ·) 0

end LinearSystem
