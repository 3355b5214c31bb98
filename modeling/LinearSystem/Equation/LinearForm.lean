import LinearSystem.Symbol
/-!
Linear forms: sums of variables with coefficients, each variable at most once, in the order in which
the variables were first added.
-/
namespace LinearSystem

/-- A list of variables with their coefficients in which no variable is repeated. -/
structure LinearForm (α : Type) where
  terms : List (Symbol × α)
  distinct : (terms.map Prod.fst).Nodup

namespace LinearForm

variable {α : Type}

/-- Replaces the value at a symbol by what `change` makes of it, at the end if there is none. -/
def alter (change : Option α → α) (symbol : Symbol) : List (Symbol × α) → List (Symbol × α)
  | [] => [(symbol, change none)]
  | (other, value) :: rest =>
    if other = symbol then (symbol, change (some value)) :: rest
    else (other, value) :: alter change symbol rest

theorem map_fst_alter (change : Option α → α) (symbol : Symbol) (terms : List (Symbol × α)) :
    (alter change symbol terms).map Prod.fst =
      if symbol ∈ terms.map Prod.fst then terms.map Prod.fst
      else terms.map Prod.fst ++ [symbol] := by
  induction terms with
  | nil => simp [alter]
  | cons term rest ih =>
    obtain ⟨other, value⟩ := term
    by_cases same : other = symbol
    · simp [alter, same]
    · simp only [alter, same, if_false, List.map_cons, ih, List.mem_cons, Ne.symm same, false_or]
      split <;> simp

theorem nodup_alter (change : Option α → α) (symbol : Symbol) {terms : List (Symbol × α)}
    (distinct : (terms.map Prod.fst).Nodup) :
    ((alter change symbol terms).map Prod.fst).Nodup := by
  rw [map_fst_alter]
  split
  · exact distinct
  next absent =>
    rw [List.nodup_append]
    refine ⟨distinct, by simp, ?_⟩
    intro old member new single same
    simp only [List.mem_singleton] at single
    exact absent (single ▸ same ▸ member)

/-- The form without terms. -/
def empty : LinearForm α := ⟨[], by simp⟩

/-- The coefficient of a variable, if it occurs. -/
def coefficient? (form : LinearForm α) (symbol : Symbol) : Option α := form.terms.lookup symbol

/-- Adds to the coefficient of a variable; a variable that does not occur yet starts at zero. -/
def add [Add α] [OfNat α 0] (form : LinearForm α) (symbol : Symbol) (value : α) : LinearForm α :=
  ⟨alter (fun old => old.getD 0 + value) symbol form.terms, nodup_alter _ _ form.distinct⟩

/-- Gives a variable a coefficient, whatever it had before. -/
def set (form : LinearForm α) (symbol : Symbol) (value : α) : LinearForm α :=
  ⟨alter (fun _ => value) symbol form.terms, nodup_alter _ _ form.distinct⟩

/-- The number of variables. -/
def size (form : LinearForm α) : Nat := form.terms.length

end LinearForm

end LinearSystem
