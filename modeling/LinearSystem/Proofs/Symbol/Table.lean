import LinearSystem.Symbol
import Mathlib.Data.List.Induction
import Mathlib.Data.List.Nodup
/-!
Symbol tables only grow: a name that a table has keeps its symbol in every later table, and a symbol
its name. Looking a name up and reading it off are inverse to each other (`lookup?_eq_some_iff`),
and names are numbered in the order in which they come up first (`names_internAll`).
-/
namespace LinearSystem.SymbolTable

/-! ### Interning -/

theorem intern_of_known {table : SymbolTable} {name : String} (known : name ∈ table.names) :
    table.intern name = (⟨table.names.idxOf name⟩, table) := by
  simp [intern, known]

theorem intern_of_fresh {table : SymbolTable} {name : String} (fresh : name ∉ table.names) :
    table.intern name = (⟨table.names.length⟩, table.push name fresh) := by
  simp [intern, fresh]

theorem mem_intern (table : SymbolTable) (name : String) :
    name ∈ (table.intern name).2.names := by
  unfold intern
  split
  next known => exact known
  · simp [push]

theorem id_intern (table : SymbolTable) (name : String) :
    (table.intern name).1 = ⟨(table.intern name).2.names.idxOf name⟩ := by
  unfold intern
  split
  · rfl
  next fresh => simp [push, List.idxOf_append, fresh]

/-- A known name is what its symbol stands for. -/
theorem name?_intern {table : SymbolTable} {name : String} (known : name ∈ table.names) :
    table.name? (table.intern name).1 = some name := by
  rw [intern_of_known known, name?, List.getElem?_idxOf known]

theorem nameOf_intern {table : SymbolTable} {name : String} (known : name ∈ table.names) :
    table.nameOf (table.intern name).1 = name := by
  rw [nameOf, name?_intern known, Option.getD_some]

/-! ### Later tables -/

/-- A later table has the names of an earlier one in front. -/
def Extends (earlier later : SymbolTable) : Prop := earlier.names <+: later.names

theorem extends_refl (table : SymbolTable) : Extends table table := List.prefix_refl _

theorem Extends.trans {first second third : SymbolTable} (one : Extends first second)
    (two : Extends second third) : Extends first third := List.IsPrefix.trans one two

theorem extends_intern (table : SymbolTable) (name : String) :
    Extends table (table.intern name).2 := by
  unfold intern
  split
  · exact extends_refl table
  · exact List.prefix_append _ _

/-- A name that was interned has the same symbol in every later table. -/
theorem Extends.intern_eq {table later : SymbolTable} {name : String}
    (grown : Extends (table.intern name).2 later) :
    (later.intern name).1 = (table.intern name).1 := by
  obtain ⟨added, same⟩ := grown
  have known := table.mem_intern name
  have stays : name ∈ later.names := by simp [← same, known]
  -- The place of a name does not depend on the names that are added after it.
  rw [id_intern table, intern_of_known stays, ← same, List.idxOf_append, if_pos known]

/-- A symbol that has a name keeps it in every later table. -/
theorem Extends.name?_eq {table later : SymbolTable} {symbol : Symbol} {name : String}
    (grown : Extends table later) (named : table.name? symbol = some name) :
    later.name? symbol = some name := by
  obtain ⟨added, same⟩ := grown
  obtain ⟨bound, -⟩ := List.getElem?_eq_some_iff.mp named
  rw [name?, ← same, List.getElem?_append_left bound]
  exact named

/-! ### Looking up -/

/-- A symbol that has a name has a number below the number of names. -/
theorem id_lt_of_name? {table : SymbolTable} {symbol : Symbol} {name : String}
    (named : table.name? symbol = some name) : symbol.id < table.names.length := by
  obtain ⟨bound, -⟩ := List.getElem?_eq_some_iff.mp named
  exact bound

theorem name?_injective {table : SymbolTable} {first second : Symbol} {name : String}
    (one : table.name? first = some name) (two : table.name? second = some name) :
    first = second := by
  obtain ⟨bound, -⟩ := List.getElem?_eq_some_iff.mp one
  have places := (List.getElem?_inj bound table.distinct).mp (one.trans two.symm)
  exact congrArg Symbol.mk places

/-- Looking a name up and reading it off are inverse to each other. -/
theorem lookup?_eq_some_iff {table : SymbolTable} {name : String} {symbol : Symbol} :
    table.lookup? name = some symbol ↔ table.name? symbol = some name := by
  rw [lookup?, Option.map_eq_some_iff]
  constructor
  · rintro ⟨place, found, rfl⟩
    obtain ⟨bound, same, -⟩ := List.idxOf?_eq_some_iff.mp found
    rw [name?, List.getElem?_eq_getElem bound, same]
  · intro named
    obtain ⟨bound, same⟩ := List.getElem?_eq_some_iff.mp named
    refine ⟨symbol.id, List.idxOf?_eq_some_iff.mpr ⟨bound, same, ?_⟩, rfl⟩
    -- The name stands nowhere else, so nowhere before.
    intro earlier before equal
    have places := (List.Nodup.getElem_inj_iff table.distinct).mp (equal.trans same.symm)
    omega

theorem lookup?_of_known {table : SymbolTable} {name : String} (known : name ∈ table.names) :
    table.lookup? name = some ⟨table.names.idxOf name⟩ :=
  lookup?_eq_some_iff.mpr (List.getElem?_idxOf known)

theorem lookup?_eq_none {table : SymbolTable} {name : String} :
    table.lookup? name = none ↔ name ∉ table.names := by
  rw [lookup?, Option.map_eq_none_iff, List.idxOf?_eq_none_iff]

/-- A new name is found behind all others, which stay where they are. -/
theorem lookup?_push {table : SymbolTable} {name : String} (fresh : name ∉ table.names)
    (other : String) :
    (table.push name fresh).lookup? other =
      if name = other then some ⟨table.names.length⟩ else table.lookup? other := by
  split
  next same =>
    subst same
    exact lookup?_eq_some_iff.mpr (by simp [name?, push])
  next different =>
    by_cases known : other ∈ table.names
    · rw [lookup?_of_known known, lookup?_of_known (by simp [push, known])]
      simp [push, List.idxOf_append, known]
    · rw [lookup?_eq_none.mpr known, lookup?_eq_none]
      simp [push, known, Ne.symm different]

theorem Extends.lookup?_eq {table later : SymbolTable} {name : String} {symbol : Symbol}
    (grown : table.Extends later) (found : table.lookup? name = some symbol) :
    later.lookup? name = some symbol :=
  lookup?_eq_some_iff.mpr (grown.name?_eq (lookup?_eq_some_iff.mp found))

/-! ### Many names -/

/-- The table after names that are interned one after the other. -/
def internAll (table : SymbolTable) (names : List String) : SymbolTable :=
  names.foldl (fun table name => (table.intern name).2) table

theorem internAll_append (table : SymbolTable) (front back : List String) :
    table.internAll (front ++ back) = (table.internAll front).internAll back :=
  List.foldl_append

theorem extends_internAll (table : SymbolTable) (names : List String) :
    table.Extends (table.internAll names) := by
  induction names generalizing table with
  | nil => exact table.extends_refl
  | cons name rest ih => exact (table.extends_intern name).trans (ih _)

/-- Names that are new to a table are put behind its own, each once and in the order in which they
come up first. -/
theorem names_internAll_append (table : SymbolTable) (names : List String) :
    (table.internAll names).names =
      table.names ++ (names.filter fun name => name ∉ table.names).eraseDups := by
  induction names using List.reverseRecOn with
  | nil => simp [internAll]
  | append_singleton front name ih =>
    have known : name ∈ (table.internAll front).names ↔ name ∈ table.names ∨ name ∈ front := by
      rw [ih, List.mem_append, List.mem_eraseDups]
      by_cases old : name ∈ table.names <;> simp [old]
    rw [internAll_append, List.filter_append, List.eraseDups_append, ← List.append_assoc, ← ih]
    change ((table.internAll front).intern name).2.names = _
    by_cases old : name ∈ table.names
    · rw [intern_of_known (known.mpr (.inl old))]
      simp [List.removeAll, old]
    · by_cases seen : name ∈ front
      · rw [intern_of_known (known.mpr (.inr seen))]
        simp [List.removeAll, old, seen]
      · rw [intern_of_fresh (mt known.mp (by simp [old, seen]))]
        simp [List.removeAll, old, seen, push, List.eraseDups_cons]

/-- Names are numbered in the order in which they come up first. -/
theorem names_internAll (names : List String) :
    (empty.internAll names).names = names.eraseDups := by
  simp [names_internAll_append, empty]

end LinearSystem.SymbolTable
