import LinearSystem.Proofs.Equation.Parts
import LinearSystem.Proofs.Text.Order
/-!
Equations by the names of their variables.

Which number a name has depends on what was read before, so equations over two tables are compared
by names (`Equation.Matches`). Pieces that stand for the same names are built into equations that
match, whatever the numbers of these names are (`Builder.Alike.step`, `Builder.Alike.finish`,
`Equation.Alike.toMatches`).
-/
namespace LinearSystem

variable {α : Type}

namespace SymbolTable

/-! ### Names of symbols -/

/-- Symbols of two tables that stand for one name. -/
def SameName (table other : SymbolTable) (symbol symbol' : Symbol) : Prop :=
  ∃ name, table.name? symbol = some name ∧ other.name? symbol' = some name

theorem SameName.eq_iff {table other : SymbolTable} {first first' second second' : Symbol}
    (one : SameName table other first first') (two : SameName table other second second') :
    first = second ↔ first' = second' := by
  obtain ⟨name, named, named'⟩ := one
  obtain ⟨name', second, second'⟩ := two
  constructor
  · rintro rfl
    obtain rfl := Option.some.inj (named.symm.trans second)
    exact name?_injective named' second'
  · rintro rfl
    obtain rfl := Option.some.inj (named'.symm.trans second')
    exact name?_injective named second

theorem sameName_intern {table other : SymbolTable} {name : String} (known : name ∈ table.names)
    (known' : name ∈ other.names) :
    SameName table other (table.intern name).1 (other.intern name).1 :=
  ⟨name, name?_intern known, name?_intern known'⟩

theorem SameName.nameOf_eq {table other : SymbolTable} {symbol symbol' : Symbol}
    (same : SameName table other symbol symbol') : table.nameOf symbol = other.nameOf symbol' := by
  obtain ⟨name, named, named'⟩ := same
  rw [nameOf, nameOf, named, named']

end SymbolTable

open SymbolTable

/-! ### Equations that match -/

namespace Equation

/-- Every variable has a name. -/
def IsNamed (table : SymbolTable) (equation : Equation α) : Prop :=
  ∀ term ∈ equation.form.terms, ∃ name, table.name? term.1 = some name

/-- Equations over two tables that say the same of the same names. -/
structure Matches (table other : SymbolTable) (equation equation' : Equation α) : Prop where
  relation : equation.relation = equation'.relation
  coefficient : ∀ name, equation.coefficient? table name = equation'.coefficient? other name
  terms : equation.terms table = equation'.terms other
  bound : equation.bound = equation'.bound

/-- A symbol is found among terms if its name is found among their names. -/
theorem lookup_nameOf {table : SymbolTable} {terms : List (Symbol × α)}
    (named : ∀ term ∈ terms, ∃ name, table.name? term.1 = some name) (name : String) :
    (table.lookup? name).bind (fun symbol => terms.lookup symbol) =
      (terms.map fun (symbol, value) => (table.nameOf symbol, value)).lookup name := by
  induction terms with
  | nil => cases table.lookup? name <;> rfl
  | cons term rest ih =>
    obtain ⟨symbol, value⟩ := term
    obtain ⟨⟨known, isName⟩, others⟩ := List.forall_mem_cons.mp named
    have nameOf : table.nameOf symbol = known := by simp [SymbolTable.nameOf, isName]
    rw [List.map_cons, List.lookup_cons, ← ih others, nameOf]
    by_cases same : name = known
    · subst same
      simp [lookup?_eq_some_iff.mpr isName]
    · have differs : (name == known) = false := beq_eq_false_iff_ne.mpr same
      rw [differs]
      cases found : table.lookup? name with
      | none => rfl
      | some symbol' =>
        -- Another name has another symbol.
        have other : (symbol' == symbol) = false := by
          apply beq_eq_false_iff_ne.mpr
          rintro rfl
          have isOther := lookup?_eq_some_iff.mp found
          exact same (Option.some.inj (isOther.symm.trans isName))
        simp only [Option.bind_some, List.lookup_cons, other]

/-- The coefficient of a name is the one that it has among the named terms. -/
theorem coefficient?_eq_lookup {table : SymbolTable} {equation : Equation α}
    (named : equation.IsNamed table) (name : String) :
    equation.coefficient? table name = (equation.namedTerms table).lookup name :=
  lookup_nameOf named name

theorem nodup_namedTerms {table : SymbolTable} {equation : Equation α}
    (named : equation.IsNamed table) : ((equation.namedTerms table).map Prod.fst).Nodup := by
  have names : (equation.namedTerms table).map Prod.fst =
      (equation.form.terms.map Prod.fst).map table.nameOf := by
    simp [namedTerms, Function.comp_def]
  rw [names]
  apply List.Nodup.map_on _ equation.form.distinct
  intro first firstMember second secondMember same
  obtain ⟨term, among, rfl⟩ := List.mem_map.mp firstMember
  obtain ⟨term', among', rfl⟩ := List.mem_map.mp secondMember
  obtain ⟨name, isName⟩ := named term among
  obtain ⟨name', isName'⟩ := named term' among'
  simp only [nameOf, isName, isName', Option.getD_some] at same
  subst same
  exact name?_injective isName isName'

/-- Equations match that have the same named terms, in whatever order. -/
theorem matches_of_perm {table other : SymbolTable} {equation equation' : Equation α}
    (relation : equation.relation = equation'.relation) (named : equation.IsNamed table)
    (named' : equation'.IsNamed other)
    (terms : (equation.namedTerms table).Perm (equation'.namedTerms other))
    (bound : equation.bound = equation'.bound) : Equation.Matches table other equation equation' := by
  have distinct := nodup_namedTerms named
  refine ⟨relation, ?_, Text.sortByName_eq distinct terms, bound⟩
  intro name
  rw [coefficient?_eq_lookup named, coefficient?_eq_lookup named']
  exact Text.lookup_eq_of_perm distinct terms name

end Equation

/-! ### Builders over two tables -/

/-- Terms of variables with one name and of one coefficient. -/
def SameTerm (table other : SymbolTable) (term term' : Symbol × α) : Prop :=
  SameName table other term.1 term'.1 ∧ term.2 = term'.2

theorem exists_of_forall₂ {β : Type} {related : α → β → Prop} {list : List α} {others : List β}
    (each : List.Forall₂ related list others) {element : α} (member : element ∈ list) :
    ∃ other ∈ others, related element other := by
  induction each with
  | nil => cases member
  | cons here _ ih =>
    rcases List.mem_cons.mp member with rfl | member
    · exact ⟨_, List.mem_cons_self, here⟩
    · obtain ⟨other, among, holds⟩ := ih member
      exact ⟨other, List.mem_cons_of_mem _ among, holds⟩

/-- Terms over two tables stay the same when the coefficients of one name are changed. -/
theorem sameTerms_alter {table other : SymbolTable} {symbol symbol' : Symbol}
    (same : SameName table other symbol symbol') (change : Option α → α)
    {terms terms' : List (Symbol × α)}
    (alike : List.Forall₂ (SameTerm table other) terms terms') :
    List.Forall₂ (SameTerm table other) (LinearForm.alter change symbol terms)
      (LinearForm.alter change symbol' terms') := by
  induction alike with
  | nil => exact .cons ⟨same, rfl⟩ .nil
  | @cons term term' rest rest' here others ih =>
    obtain ⟨first, value⟩ := term
    obtain ⟨first', value'⟩ := term'
    obtain ⟨sameFirst, rfl⟩ := here
    have agree : first = symbol ↔ first' = symbol' := sameFirst.eq_iff same
    by_cases found : first = symbol
    · rw [LinearForm.alter, LinearForm.alter, if_pos found, if_pos (agree.mp found)]
      exact .cons ⟨same, rfl⟩ others
    · have absent : ¬first' = symbol' := fun equal => found (agree.mpr equal)
      rw [LinearForm.alter, LinearForm.alter, if_neg found, if_neg absent]
      exact .cons ⟨sameFirst, rfl⟩ ih

theorem map_nameOf_eq {table other : SymbolTable} {terms terms' : List (Symbol × α)}
    (same : List.Forall₂ (SameTerm table other) terms terms') :
    (terms.map fun (symbol, value) => (table.nameOf symbol, value)) =
      terms'.map fun (symbol, value) => (other.nameOf symbol, value) := by
  induction same with
  | nil => rfl
  | cons here _ ih =>
    rw [List.map_cons, List.map_cons, ih]
    exact congrArg (List.cons · _) (Prod.ext here.1.nameOf_eq here.2)

/-- Equations over two tables with the same terms, one by one. -/
structure Equation.Alike (table other : SymbolTable) (equation equation' : Equation α) : Prop where
  relation : equation.relation = equation'.relation
  terms : List.Forall₂ (SameTerm table other) equation.form.terms equation'.form.terms
  bound : equation.bound = equation'.bound

namespace Equation.Alike

variable {table other : SymbolTable} {equation equation' : Equation α}

theorem isNamed (alike : Alike table other equation equation') : equation.IsNamed table := by
  intro term member
  obtain ⟨term', -, ⟨name, isName, -⟩, -⟩ := exists_of_forall₂ alike.terms member
  exact ⟨name, isName⟩

theorem isNamed' (alike : Alike table other equation equation') : equation'.IsNamed other := by
  intro term' member
  obtain ⟨term, -, ⟨name, -, isName⟩, -⟩ := exists_of_forall₂ alike.terms.flip member
  exact ⟨name, isName⟩

theorem namedTerms_eq (alike : Alike table other equation equation') :
    equation.namedTerms table = equation'.namedTerms other :=
  map_nameOf_eq alike.terms

theorem toMatches (alike : Alike table other equation equation') :
    Matches table other equation equation' :=
  matches_of_perm alike.relation alike.isNamed alike.isNamed'
    (alike.namedTerms_eq ▸ List.Perm.refl _) alike.bound

end Equation.Alike

namespace Builder

/-- Builders over two tables that have taken the same names. -/
structure Alike (table other : SymbolTable) (builder builder' : Builder α) : Prop where
  relation : builder.relation = builder'.relation
  terms : List.Forall₂ (SameTerm table other) builder.form.terms builder'.form.terms
  bound : builder.bound = builder'.bound
  coefficient : builder.coefficient = builder'.coefficient
  symbol : Option.Rel (SameName table other) builder.symbol builder'.symbol
  atStart : builder.atStart = builder'.atStart

variable {table other : SymbolTable} {builder builder' : Builder α}

theorem Alike.later (alike : Alike table other builder builder') :
    Alike table other { builder with atStart := false } { builder' with atStart := false } :=
  { alike with atStart := rfl }

variable [OfNat α 0]

theorem alike_fresh (atStart : Bool) :
    Alike table other (fresh atStart : Builder α) (fresh atStart) :=
  ⟨rfl, .nil, rfl, rfl, .none, rfl⟩

variable [Add α] [Sub α] [Neg α] [BEq α]

theorem Alike.closeTerm (alike : Alike table other builder builder') :
    Alike table other builder.closeTerm builder'.closeTerm := by
  obtain ⟨relation, form, bound, coefficient, symbol, atStart⟩ := builder
  obtain ⟨relation', form', bound', coefficient', symbol', atStart'⟩ := builder'
  obtain ⟨rfl, terms, rfl, rfl, symbols, rfl⟩ := alike
  unfold Builder.closeTerm
  cases coefficient with
  | none => exact ⟨rfl, terms, rfl, rfl, symbols, rfl⟩
  | some value =>
    by_cases zero : value == 0
    · simp only [zero, if_true]
      exact ⟨rfl, terms, rfl, rfl, symbols, rfl⟩
    · simp only [zero]
      cases symbols with
      | none => exact ⟨rfl, terms, rfl, rfl, .none, rfl⟩
      | some same => exact ⟨rfl, sameTerms_alter same _ terms, rfl, rfl, .some same, rfl⟩

theorem Alike.openTerm (alike : Alike table other builder builder') (coefficient : Option α) :
    Alike table other (builder.openTerm coefficient) (builder'.openTerm coefficient) :=
  { alike.closeTerm with coefficient := rfl, symbol := .none }

/-- Builders that have taken the same names finish equations with the same terms, if any. -/
theorem Alike.finish (alike : Alike table other builder builder') :
    Option.Rel (Equation.Alike table other) builder.finish builder'.finish := by
  obtain ⟨relation, terms, bound, -, -, -⟩ := alike.closeTerm
  simp only [Builder.finish, ← relation]
  cases builder.closeTerm.relation with
  | none => exact .none
  | some stated => exact .some ⟨rfl, terms, bound⟩

variable [OfNat α 1] [Mul α]

/-- One token, with its name in both tables, is taken alike. -/
theorem Alike.step (alike : Alike table other builder builder') (read : String → Option α)
    {item : Kind × String}
    (known : item.1 = .name → item.2 ∈ table.names ∧ item.2 ∈ other.names) :
    Alike table other (builder.step (Piece.ofItem read table item)).1
      (builder'.step (Piece.ofItem read other item)).1 := by
  obtain ⟨kind, text⟩ := item
  cases kind with
  | startOfInput => exact { alike with atStart := rfl }
  | endOfInput =>
    simp only [Piece.ofItem, Piece.ofToken, Builder.step, alike.atStart]
    split
    · exact alike.later
    · exact alike_fresh false
  | plus | minus => exact alike.later.openTerm _
  | times => exact alike.later
  | relation r => exact { alike.later.openTerm none with relation := rfl }
  | coefficient =>
    cases value : read text with
    | none => simpa [Piece.ofItem, Piece.ofToken, value, Builder.step] using alike.later
    | some number =>
      simp only [Piece.ofItem, Piece.ofToken, value, Builder.step, multiply, alike.coefficient]
      exact { alike.later with coefficient := rfl }
  | name =>
    obtain ⟨here, there⟩ := known rfl
    simp only [Piece.ofItem, Piece.ofToken, Builder.step, withSymbol, alike.coefficient]
    exact { alike.later with coefficient := rfl, symbol := .some (sameName_intern here there) }
  | comma =>
    simp only [Piece.ofItem, Piece.ofToken, step_comma]
    exact alike_fresh false

theorem Alike.after (alike : Alike table other builder builder') (read : String → Option α)
    {items : List (Kind × String)}
    (known : ∀ text, (.name, text) ∈ items → text ∈ table.names ∧ text ∈ other.names) :
    Alike table other (builder.after (items.map (Piece.ofItem read table)))
      (builder'.after (items.map (Piece.ofItem read other))) := by
  induction items generalizing builder builder' with
  | nil => exact alike
  | cons item rest ih =>
    rw [List.map_cons, List.map_cons, after_cons, after_cons]
    apply ih
    · apply alike.step read
      rintro isName
      exact known item.2 (by simp [← isName])
    · exact fun text member => known text (List.mem_cons_of_mem item member)

end Builder

end LinearSystem
