import LinearSystem.Equation.Interned
import LinearSystem.Proofs.Chain.Comparison
import LinearSystem.Proofs.Equation.Parsed
import LinearSystem.Proofs.Symbol.Interner
/-!
Equations do not depend on what was read before.

Which number a name has depends on the history of an interner, and so does what a number stands for.
Parsing a source after two histories gives equations with the same terms under different numbers
(`Source.parse_alike`). As long as there are numbers for all names, what an interner shows of an
equation is what a table shows of it (`Interner.Represents.terms_eq`), and this is the same for both
equations and stays the same whatever is read later (`Interner.parse_afterCalls`).
-/
namespace LinearSystem

/-! ### Tables -/

theorem SymbolTable.Extends.sameName {table later : SymbolTable} {symbol : Symbol} {name : String}
    (grown : table.Extends later) (named : table.name? symbol = some name) :
    SameName table later symbol symbol :=
  ⟨name, named, grown.name?_eq named⟩

/-- An equation stays what it is when its table grows. -/
theorem Equation.IsNamed.alike {α : Type} {table later : SymbolTable} {equation : Equation α}
    (named : equation.IsNamed table) (grown : table.Extends later) :
    Equation.Alike table later equation equation := by
  refine ⟨rfl, ?_, rfl⟩
  rw [List.forall₂_same]
  intro term member
  obtain ⟨name, isName⟩ := named term member
  exact ⟨grown.sameName isName, rfl⟩

theorem Equation.ascending_terms {α : Type} {table : SymbolTable} {equation : Equation α}
    (named : equation.IsNamed table) :
    (equation.terms table).Pairwise fun first second =>
      first.1 ≠ second.1 ∧ Text.precedes first.1.toList second.1.toList = true := by
  have distinct : ((equation.terms table).map Prod.fst).Nodup :=
    ((Text.sortByName_perm _).map Prod.fst).nodup_iff.mpr (nodup_namedTerms named)
  exact (List.pairwise_map.mp distinct).and (Text.pairwise_sortByName _)

/-- With any two tables a source is refused for the same reason, or parsed to equations with the
same terms. -/
theorem Source.parse_alike (table other : SymbolTable) (source : String) :
    Corresponds Eq
      (List.Forall₂ (Equation.Alike (parse table source).2 (parse other source).2))
      (parse table source).1 (parse other source).1 := by
  cases lexed : chain source with
  | error diagnostic =>
    have refused (table : SymbolTable) : parse table source = (.error diagnostic, table) := by
      simp only [parse, parseWith, lexed]
    rw [refused table, refused other]
    exact .error rfl
  | ok result =>
    -- What the source is read as does not depend on a table, and each table knows its names then.
    obtain ⟨items, reads, list, after, made⟩ := parse_eq_ok.mp
      (parseWith_eq_ok.mpr ⟨result, lexed, (Prod.mk.eta (p := result.equations _ table)).symm⟩)
    have parsed (table : SymbolTable) : parse table source = (.ok _, _) :=
      parse_eq_ok.mpr ⟨items, reads, list, rfl, rfl⟩
    rw [parsed table, parsed other]
    exact .ok (Items.equations_alike fun text member =>
      ⟨Piece.mem_ofTokens Numeral.readFloat? member, Piece.mem_ofTokens Numeral.readFloat? member⟩)

/-- The variables of what is parsed have names. -/
theorem Source.isNamed_of_parse {table : SymbolTable} {source : String}
    {equations : List (Equation Float)} (parsed : (parse table source).1 = .ok equations) :
    ∀ equation ∈ equations, equation.IsNamed (parse table source).2 := by
  intro equation member
  have both := parse_alike table table source
  rw [parsed] at both
  cases both with
  | ok alike =>
    obtain ⟨other, -, same⟩ := exists_of_forall₂ alike member
    exact same.isNamed

/-! ### Interners -/

namespace Interner

/-- Two equations look alike through two interners: what is asked of them by name and what is shown
of them is the same, in whatever order their variables are gone through, and every variable has a
name. -/
structure LooksAlike (interner other : Interner) (equation equation' : Equation Float) : Prop where
  relation : equation.relation = equation'.relation
  bound : equation.bound = equation'.bound
  coefficient : ∀ name,
    interner.coefficient? equation name = other.coefficient? equation' name
  contains : ∀ name, interner.contains equation name = other.contains equation' name
  named : ∀ term ∈ equation.form.terms, (interner.name? term.1.id.toUInt32).isSome = true
  terms : ∀ order order', order.Perm equation.form.terms → order'.Perm equation'.form.terms →
    interner.terms order = other.terms order'
  ascending : ∀ order, order.Perm equation.form.terms →
    (interner.terms order).Pairwise fun first second =>
      first.1 ≠ second.1 ∧ Text.precedes first.1.toList second.1.toList = true
  line : ∀ order order', order.Perm equation.form.terms → order'.Perm equation'.form.terms →
    interner.line equation order = other.line equation' order'

namespace Represents

variable {α : Type} {interner : Interner} {table : SymbolTable}
  (represents : interner.Represents table) (few : table.names.length ≤ UInt32.size)

include represents few

theorem name?_eq_of_named {symbol : Symbol} {name : String}
    (named : table.name? symbol = some name) : interner.name? symbol.id.toUInt32 = some name := by
  have bound := SymbolTable.id_lt_of_name? named
  rw [represents.name?_eq, toNat_toUInt32 (by omega)]
  exact named

theorem coefficient?_eq (equation : Equation α) (name : String) :
    interner.coefficient? equation name = equation.coefficient? table name := by
  rw [coefficient?, Equation.coefficient?, represents.lookup?_eq]
  cases found : table.lookup? name with
  | none => rfl
  | some symbol =>
    have bound := SymbolTable.id_lt_of_name? (SymbolTable.lookup?_eq_some_iff.mp found)
    simp [toNat_toUInt32 (show symbol.id < UInt32.size by omega)]

/-- The order in which variables are gone through does not show in the terms. -/
theorem terms_eq {equation : Equation α} (named : equation.IsNamed table)
    {order : List (Symbol × α)} (anyOrder : order.Perm equation.form.terms) :
    interner.terms order = equation.terms table := by
  -- The number of a variable with a name fits into 32 bits, so the interner has the same name.
  have names : (order.map fun term => (interner.nameOf term.1, term.2)) =
      order.map fun term => (table.nameOf term.1, term.2) := by
    apply List.map_congr_left
    intro term member
    obtain ⟨name, isName⟩ := named term (anyOrder.subset member)
    simp [nameOf, SymbolTable.nameOf, represents.name?_eq_of_named few isName, isName]
  rw [terms, names]
  exact (Text.sortByName_eq (Equation.nodup_namedTerms named) (anyOrder.symm.map _)).symm

theorem line_eq {equation : Equation Float} (named : equation.IsNamed table)
    {order : List (Symbol × Float)} (anyOrder : order.Perm equation.form.terms) :
    interner.line equation order = equation.render table := by
  rw [line, represents.terms_eq few named anyOrder, Equation.render]

/-- Equations with the same terms look alike. -/
theorem looksAlike {other : Interner} {table' : SymbolTable} {equation equation' : Equation Float}
    (represents' : other.Represents table') (few' : table'.names.length ≤ UInt32.size)
    (alike : Equation.Alike table table' equation equation') :
    LooksAlike interner other equation equation' := by
  -- Each interner shows what its table shows, and by the tables the equations match.
  have same := alike.toMatches
  have coefficient (name : String) :
      interner.coefficient? equation name = other.coefficient? equation' name := by
    rw [represents.coefficient?_eq few, represents'.coefficient?_eq few', same.coefficient]
  refine ⟨alike.relation, alike.bound, coefficient, ?_, ?_, ?_, ?_, ?_⟩
  · intro name
    rw [contains, contains, coefficient]
  · intro term member
    obtain ⟨name, isName⟩ := alike.isNamed term member
    simp [represents.name?_eq_of_named few isName]
  · intro order order' anyOrder anyOrder'
    rw [represents.terms_eq few alike.isNamed anyOrder,
      represents'.terms_eq few' alike.isNamed' anyOrder', same.terms]
  · intro order anyOrder
    rw [represents.terms_eq few alike.isNamed anyOrder]
    exact Equation.ascending_terms alike.isNamed
  · intro order order' anyOrder anyOrder'
    rw [represents.line_eq few alike.isNamed anyOrder,
      represents'.line_eq few' alike.isNamed' anyOrder', Equation.render, Equation.render,
      same.terms, same.relation, same.bound]

end Represents

/-! ### Histories -/

/-- The equations of a source look alike through the two interners that it leaves behind. -/
theorem Represents.parse_looksAlike {interner other : Interner} {table table' : SymbolTable}
    (represents : interner.Represents table) (represents' : other.Represents table')
    {source : String} (few : (Source.parse table source).2.names.length ≤ UInt32.size)
    (few' : (Source.parse table' source).2.names.length ≤ UInt32.size) :
    Corresponds Eq
      (List.Forall₂ (LooksAlike (interner.parse source).2 (other.parse source).2))
      (interner.parse source).1 (other.parse source).1 := by
  rw [represents.parse_eq source few, represents'.parse_eq source few']
  refine (Source.parse_alike table table' source).imp (fun _ _ same => same) ?_
  intro equations equations' alike
  exact alike.imp fun _ _ same =>
    (represents.parse source).looksAlike few (represents'.parse source) few' same

/-- An equation that was parsed looks the same later. -/
theorem Represents.looksAlike_later {interner later : Interner} {table table' : SymbolTable}
    (represents : interner.Represents table) (represents' : later.Represents table')
    (grown : table.Extends table') (few : table'.names.length ≤ UInt32.size)
    {equation : Equation Float} (named : equation.IsNamed table) :
    LooksAlike interner later equation equation :=
  represents.looksAlike ((List.IsPrefix.length_le grown).trans few) represents' few
    (named.alike grown)

/-- What is parsed does not depend on what was interned and parsed before. After any two histories a
source is refused for the same reason, or parsed to equations that look alike; and an equation that
was parsed looks the same after whatever is interned and parsed later. This holds as long as there
are numbers for all names. -/
theorem parse_afterCalls {first second later : List Call} {source : String}
    (few : ((first ++ Call.parse source :: later).flatMap Call.interned).eraseDups.length ≤
      UInt32.size)
    (few' : ((second ++ [Call.parse source]).flatMap Call.interned).eraseDups.length ≤
      UInt32.size) :
    let now := empty.afterCalls first
    let now' := empty.afterCalls second
    let after := (now.parse source).2
    Corresponds Eq (List.Forall₂ (LooksAlike after (now'.parse source).2)) (now.parse source).1
        (now'.parse source).1 ∧
      ∀ equations, (now.parse source).1 = .ok equations → ∀ equation ∈ equations,
        LooksAlike after (after.afterCalls later) equation equation := by
  intro now now' after
  have represents := represents_afterCalls first
  have represents' := represents_afterCalls second
  have afterRepresents := represents.parse source
  have finalRepresents := afterRepresents.afterCalls later
  -- The names of a history are counted as those of the table that it leaves behind.
  rw [← SymbolTable.names_internAll, List.flatMap_append, List.flatMap_cons,
    SymbolTable.internAll_append, SymbolTable.internAll_append, Call.interned,
    ← parse_eq_internAll] at few
  rw [← SymbolTable.names_internAll, List.flatMap_append, SymbolTable.internAll_append,
    List.flatMap_singleton, Call.interned, ← parse_eq_internAll] at few'
  have grown := SymbolTable.extends_internAll
    (Source.parse (.internAll .empty (first.flatMap Call.interned)) source).2
    (later.flatMap Call.interned)
  have fewer := (List.IsPrefix.length_le grown).trans few
  refine ⟨represents.parse_looksAlike represents' fewer few', ?_⟩
  intro equations parsed equation member
  rw [represents.parse_eq source fewer] at parsed
  exact afterRepresents.looksAlike_later finalRepresents grown few
    (Source.isNamed_of_parse parsed equation member)

/-- How many equations a source is parsed to is known from its chain. -/
theorem Represents.exists_parse {interner : Interner} {table : SymbolTable}
    (represents : interner.Represents table) {source : String} {chain : Chain}
    (lexed : Source.chain source = .ok chain)
    (few : (Source.parse table source).2.names.length ≤ UInt32.size) :
    ∃ equations, (interner.parse source).1 = .ok equations ∧ equations.length =
      if chain.innerKinds = [] then 0 else chain.innerKinds.count .comma + 1 := by
  refine ⟨(chain.equations Numeral.readFloat? table).1, ?_, ?_⟩
  · rw [represents.parse_eq source few, Source.parse, Source.parseWith, lexed]
  · exact Chain.length_equations Numeral.readFloat? table (Source.chain_eq_ok.mp lexed).2

/-- Of `2x + y <= 4` the variables have different numbers after one name and after another source.
Its one equation looks alike after both, and also after more sources, one of which is refused. -/
theorem parse_after_twoHistories :
    let first : List Call := [.intern "y"]
    let second : List Call := [.parse "z <= 1", .lookup "x"]
    let later : List Call := [.parse "a <= x", .parse "1 < 2"]
    let now := empty.afterCalls first
    let now' := empty.afterCalls second
    let after := (now.parse "2x + y <= 4").2
    ((first ++ Call.parse "2x + y <= 4" :: later).flatMap Call.interned).eraseDups.length ≤
        UInt32.size ∧
      ((second ++ [Call.parse "2x + y <= 4"]).flatMap Call.interned).eraseDups.length ≤
        UInt32.size ∧
      ∃ equation equation', (now.parse "2x + y <= 4").1 = .ok [equation] ∧
        (now'.parse "2x + y <= 4").1 = .ok [equation'] ∧
        LooksAlike after (now'.parse "2x + y <= 4").2 equation equation' ∧
        LooksAlike after (after.afterCalls later) equation equation := by
  intro first second later now now' after
  have few : ((first ++ Call.parse "2x + y <= 4" :: later).flatMap Call.interned).eraseDups.length ≤
      UInt32.size := by decide +kernel
  have few' : ((second ++ [Call.parse "2x + y <= 4"]).flatMap Call.interned).eraseDups.length ≤
      UInt32.size := by decide +kernel
  obtain ⟨both, kept⟩ := parse_afterCalls few few'
  have fewNow : (Source.parse (.internAll .empty (first.flatMap Call.interned))
      "2x + y <= 4").2.names.length ≤ UInt32.size := by
    rw [parse_eq_internAll, ← SymbolTable.internAll_append, SymbolTable.names_internAll]
    decide +kernel
  have kinds : (Source.chain "2x + y <= 4").map Chain.innerKinds =
      .ok [.coefficient, .name, .plus, .name, .relation .atMost, .coefficient] := by
    decide +kernel
  obtain ⟨chain, lexed, kinds⟩ := Chain.exists_ok_of_map kinds
  obtain ⟨equations, parsed, length⟩ := (represents_afterCalls first).exists_parse lexed fewNow
  rw [kinds] at length
  obtain ⟨equation, rfl⟩ := List.length_eq_one_iff.mp length
  rw [parsed] at both
  obtain ⟨others, parsed', alike⟩ := both.exists_ok
  obtain ⟨equation', rest, same, none, rfl⟩ := List.forall₂_cons_left_iff.mp alike
  obtain rfl := List.forall₂_nil_left_iff.mp none
  exact ⟨few, few', equation, equation', parsed, parsed', same,
    kept _ parsed equation List.mem_cons_self⟩

end Interner

end LinearSystem
