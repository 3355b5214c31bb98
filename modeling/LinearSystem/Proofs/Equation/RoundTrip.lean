import LinearSystem.Proofs.Equation.Printed
import LinearSystem.Proofs.Equation.Separate
/-!
Equations that are printed and read back.

The lexemes of a line are built into the equation that was printed (`Items.exists_printed`): every
term is closed with the coefficient that it was printed with, since a number is its sign times what
its digits are read as (`Equation.sign_mul_magnitude`). So a list of equations, printed with commas
between, is parsed to these equations (`Source.parse_render`).
-/
namespace LinearSystem

open Binary64 Grammar

/-! ### Closing terms -/

/-- A variable that does not occur yet is added at the end. -/
theorem LinearForm.alter_of_notMem {α : Type} (change : Option α → α) {symbol : Symbol}
    {terms : List (Symbol × α)} (absent : symbol ∉ terms.map Prod.fst) :
    alter change symbol terms = terms ++ [(symbol, change none)] := by
  induction terms with
  | nil => rfl
  | cons term rest ih =>
    obtain ⟨other, value⟩ := term
    rw [List.map_cons, List.mem_cons, not_or] at absent
    rw [alter, if_neg (Ne.symm absent.1), ih absent.2, List.cons_append]

namespace Builder

variable {α : Type} [OfNat α 0] [Add α] [Sub α] [Neg α] [BEq α]

theorem closeTerm_of_none {builder : Builder α} (none : builder.coefficient = none) :
    builder.closeTerm = builder := by
  rw [closeTerm, none]

theorem closeTerm_of_zero {builder : Builder α} {value : α}
    (coefficient : builder.coefficient = some value) (zero : (value == 0) = true) :
    builder.closeTerm = builder := by
  rw [closeTerm, coefficient]
  exact if_pos zero

section

variable {builder : Builder α} {value : α} (coefficient : builder.coefficient = some value)
  (nonzero : (value == 0) = false)

include coefficient nonzero

/-- On the left side a variable is added to the form. -/
theorem closeTerm_variable {symbol : Symbol} (isVariable : builder.symbol = some symbol)
    (left : builder.relation = none) :
    builder.closeTerm = { builder with form := builder.form.add symbol value } := by
  simp [closeTerm, coefficient, nonzero, isVariable, left]

/-- On the right side a constant is taken from the bound with the other sign. -/
theorem closeTerm_constant {relation : Relation} (isConstant : builder.symbol = none)
    (right : builder.relation = some relation) :
    builder.closeTerm = { builder with bound := builder.bound - -value } := by
  simp [closeTerm, coefficient, nonzero, isConstant, right]

end

theorem closeTerm_with_atStart (builder : Builder α) (atStart : Bool) :
    { builder with atStart := atStart }.closeTerm =
      { builder.closeTerm with atStart := atStart } := by
  obtain ⟨relation, form, bound, coefficient, symbol, started⟩ := builder
  cases coefficient with
  | none => rfl
  | some value =>
    simp only [closeTerm]
    split
    · rfl
    · cases symbol <;> rfl

end Builder

namespace Equation

/-! ### Numbers that are read back -/

section

variable {x : Float} (finite : x.isFinite = true)

include finite

theorem ofItem_digits (table : SymbolTable) :
    Piece.ofItem Numeral.readFloat? table (.coefficient, digits x) =
      .coefficient (some (assemble false (magnitudeBits x))) :=
  congrArg Piece.coefficient (isNumeralOf_digits finite).value

/-- A number is its sign times what its digits are read as. -/
theorem sign_mul_magnitude :
    (if isNegative x then -1 else 1) * assemble false (magnitudeBits x) = x := by
  rw [assemble_magnitudeBits finite]
  cases isNegative x with
  | true =>
    simp only [if_true]
    rw [neg_one_mul (isFinite_neg finite), Binary64.neg_neg finite]
  | false => exact Binary64.one_mul finite

/-- A sign closes the open term, and the digits after it open one with the number. -/
theorem after_signed (builder : Builder Float) (table : SymbolTable) :
    builder.after ([signItem x, (.coefficient, digits x)].map
        (Piece.ofItem Numeral.readFloat? table)) =
      { builder.closeTerm with coefficient := some x, symbol := none, atStart := false } := by
  have value := sign_mul_magnitude finite
  have later := builder.closeTerm_with_atStart false
  rw [List.map_cons, List.map_singleton, ofItem_digits finite, signItem]
  cases sign : isNegative x with
  | true =>
    simp only [sign, if_true] at value
    simp [Builder.after, Builder.step, Builder.openTerm, Builder.multiply, Piece.ofItem,
      Piece.ofToken, later, value]
  | false =>
    simp only [sign, Bool.false_eq_true, if_false] at value
    simp [Builder.after, Builder.step, Builder.openTerm, Builder.multiply, Piece.ofItem,
      Piece.ofToken, later, value]

/-- A number is read back where no term is open. -/
theorem after_numberItems {builder : Builder Float} (table : SymbolTable)
    (noCoefficient : builder.coefficient = none) (noSymbol : builder.symbol = none) :
    builder.after ((numberItems x).map (Piece.ofItem Numeral.readFloat? table)) =
      { builder with coefficient := some x, atStart := false } := by
  cases sign : isNegative x with
  | true =>
    have signed := after_signed finite builder table
    rw [signItem, sign, Builder.closeTerm_of_none noCoefficient] at signed
    rw [numberItems, sign]
    rw [← noSymbol] at signed
    exact signed
  | false =>
    have value := sign_mul_magnitude finite
    simp only [sign, Bool.false_eq_true, if_false] at value
    rw [numberItems, sign]
    simp [ofItem_digits finite, Builder.after, Builder.step, Builder.multiply, noCoefficient, value]

end

/-! ### Terms that are read back -/

/-- The symbol and the coefficient of a term, with a table that knows its name. -/
def symbolTerm (table : SymbolTable) (term : String × Float) : Symbol × Float :=
  ((table.intern term.1).1, term.2)

/-- A builder that has taken a left side with these terms. -/
structure Collected (builder : Builder Float) (terms : List (Symbol × Float)) : Prop where
  relation : builder.relation = none
  terms : builder.closeTerm.form.terms = terms
  bound : builder.closeTerm.bound = 0

/-- An open term with a variable is added to the form. -/
theorem collected_term {builder : Builder Float} {x : Float} {symbol : Symbol}
    (left : builder.relation = none) (bound : builder.bound = 0)
    (coefficient : builder.coefficient = some x) (isVariable : builder.symbol = some symbol)
    (finite : x.isFinite = true) (nonzero : (x == 0) = false)
    (absent : symbol ∉ builder.form.terms.map Prod.fst) :
    Collected builder (builder.form.terms ++ [(symbol, x)]) := by
  have closed := Builder.closeTerm_variable coefficient nonzero isVariable left
  have sum := LinearForm.alter_of_notMem (fun old : Option Float => old.getD 0 + x) absent
  rw [Option.getD_none, zero_add finite nonzero] at sum
  refine ⟨left, ?_, ?_⟩
  · rw [closed]
    exact sum
  · rw [closed]
    exact bound

theorem collected_later {builder : Builder Float} {terms : List (Symbol × Float)}
    {table : SymbolTable} {term : String × Float} (collected : Collected builder terms)
    (printable : IsPrintableTerm term)
    (absent : (symbolTerm table term).1 ∉ terms.map Prod.fst) :
    Collected (builder.after ((laterItems term).map (Piece.ofItem Numeral.readFloat? table)))
      (terms ++ [symbolTerm table term]) := by
  obtain ⟨left, rfl, bound⟩ := collected
  obtain ⟨-, finite, nonzero⟩ := printable
  have signed := after_signed finite builder table
  have parts : laterItems term =
      [signItem term.2, (.coefficient, digits term.2)] ++ [(.name, term.1)] := rfl
  rw [parts, List.map_append, Builder.after_append, signed]
  exact collected_term (builder.relation_closeTerm.trans left) bound rfl rfl finite nonzero absent

theorem collected_laterTerms {builder : Builder Float} {done : List (Symbol × Float)}
    {table : SymbolTable} {terms : List (String × Float)} (collected : Collected builder done)
    (printable : ∀ term ∈ terms, IsPrintableTerm term)
    (distinct : ((done ++ terms.map (symbolTerm table)).map Prod.fst).Nodup) :
    Collected
      (builder.after ((terms.flatMap laterItems).map (Piece.ofItem Numeral.readFloat? table)))
      (done ++ terms.map (symbolTerm table)) := by
  -- The terms that are done grow by the first one, whose symbol is not among theirs.
  induction terms generalizing builder done with
  | nil =>
    rw [List.map_nil, List.append_nil]
    exact collected
  | cons term rest ih =>
    obtain ⟨here, later⟩ := List.forall_mem_cons.mp printable
    have absent : (symbolTerm table term).1 ∉ done.map Prod.fst := by
      intro member
      rw [List.map_append, List.nodup_append] at distinct
      exact distinct.2.2 _ member _ (by simp) rfl
    have next := collected_later collected here absent
    rw [List.flatMap_cons, List.map_append, Builder.after_append, List.map_cons,
      List.append_cons]
    apply ih next later
    rwa [← List.append_cons, ← List.map_cons]

/-- The left side of a line is collected term by term. -/
theorem collected_leftItems {table : SymbolTable} {terms : List (String × Float)}
    (printable : ∀ term ∈ terms, IsPrintableTerm term)
    (distinct : ((terms.map (symbolTerm table)).map Prod.fst).Nodup) :
    Collected ((Builder.fresh false).after
        ((leftItems terms).map (Piece.ofItem Numeral.readFloat? table)))
      (terms.map (symbolTerm table)) := by
  cases terms with
  | nil =>
    -- The zero that stands for no terms leaves no trace.
    exact ⟨rfl, rfl, rfl⟩
  | cons term rest =>
    obtain ⟨here, later⟩ := List.forall_mem_cons.mp printable
    have number := @after_numberItems _ here.finite (Builder.fresh false) table rfl rfl
    rw [leftItems, firstItems, List.map_append, List.map_append, Builder.after_append,
      Builder.after_append, number]
    refine @collected_laterTerms _ [symbolTerm table term] table rest ?_ later distinct
    exact collected_term rfl rfl rfl rfl here.finite here.nonzero List.not_mem_nil

/-! ### Lines that are read back -/

/-- A bound is taken with the other sign from a bound that is zero, and so it is what it was. -/
theorem closeTerm_bound {builder : Builder Float} {bound : Float} {relation : Relation}
    (finite : bound.isFinite = true) (notNegativeZero : bound ≠ -0) (zero : builder.bound = 0)
    (coefficient : builder.coefficient = some bound) (isConstant : builder.symbol = none)
    (right : builder.relation = some relation) :
    builder.closeTerm = { builder with bound := bound } := by
  cases nothing : bound == 0 with
  | true =>
    -- A zero is not taken from anything, but zero is what is there.
    rw [Builder.closeTerm_of_zero coefficient nothing, eq_zero_of_beq nothing notNegativeZero,
      ← zero]
  | false =>
    have difference := zero_sub (isFinite_neg finite) (neg_beq_zero finite nothing)
    rw [Builder.closeTerm_constant coefficient nothing isConstant right, zero, difference,
      Binary64.neg_neg finite]

theorem finish_bound {builder : Builder Float} {terms : List (Symbol × Float)} {bound : Float}
    (collected : Collected builder terms) (finite : bound.isFinite = true)
    (notNegativeZero : bound ≠ -0) (table : SymbolTable) (relation : Relation) :
    ∃ equation, (builder.after (((.relation relation, relation.spelling) ::
          numberItems bound).map (Piece.ofItem Numeral.readFloat? table))).finish = some equation ∧
      equation.relation = relation ∧ equation.form.terms = terms ∧ equation.bound = bound := by
  obtain ⟨-, rfl, zero⟩ := collected
  let related : Builder Float :=
    { builder.closeTerm with
      relation := some relation, coefficient := none, symbol := none, atStart := false }
  have step : (builder.step (.relation relation)).1 = related := by
    have later := builder.closeTerm_with_atStart false
    simp only [Builder.step, Builder.openTerm, later]
    rfl
  have number := @after_numberItems _ finite related table rfl rfl
  have closed := @closeTerm_bound { related with coefficient := some bound, atStart := false } bound
    relation finite notNegativeZero zero rfl rfl rfl
  refine ⟨⟨relation, builder.closeTerm.form, bound⟩, ?_, rfl, rfl, rfl⟩
  rw [List.map_cons, Builder.after_cons]
  change (Builder.after (builder.step (.relation relation)).1 _).finish = _
  rw [step, number, Builder.finish, closed]
  rfl

/-- Terms with different names have different symbols. -/
theorem nodup_symbolTerms {table : SymbolTable} {terms : List (String × Float)}
    (known : ∀ term ∈ terms, term.1 ∈ table.names) (distinct : (terms.map Prod.fst).Nodup) :
    ((terms.map (symbolTerm table)).map Prod.fst).Nodup := by
  have symbols : (terms.map (symbolTerm table)).map Prod.fst =
      (terms.map Prod.fst).map fun name => (table.intern name).1 := by
    simp [symbolTerm]
  rw [symbols]
  apply List.Nodup.map_on _ distinct
  intro first firstMember second secondMember same
  obtain ⟨term, among, rfl⟩ := List.mem_map.mp firstMember
  obtain ⟨term', among', rfl⟩ := List.mem_map.mp secondMember
  have named := SymbolTable.name?_intern (known term among)
  have named' := SymbolTable.name?_intern (known term' among')
  rw [same] at named
  exact Option.some.inj (named.symm.trans named')

/-- The equation that the lexemes of a line make has the terms of the line. -/
theorem exists_printed {table other : SymbolTable} {equation : Equation Float}
    (printable : equation.IsPrintable table)
    (known : ∀ term ∈ equation.terms table, term.1 ∈ other.names) :
    ∃ single, Items.equation? other (equation.items table) = some single ∧
      single.relation = equation.relation ∧
      single.form.terms = (equation.terms table).map (symbolTerm other) ∧
      single.bound = equation.bound := by
  -- The terms are printed in the order of their names, which does not matter here.
  have names : ((equation.terms table).map Prod.fst).Nodup := by
    have same := (Text.sortByName_perm (equation.namedTerms table)).map Prod.fst
    exact same.nodup_iff.mpr (nodup_namedTerms printable.named)
  have collected := collected_leftItems printable.sorted (nodup_symbolTerms known names)
  rw [Items.equation?, items, List.map_append, Builder.after_append]
  exact finish_bound collected printable.finite printable.notNegativeZero other equation.relation

/-! ### The same equations -/

/-- Equations that are the same but for the order of their terms. -/
structure Same {α : Type} (equation equation' : Equation α) : Prop where
  relation : equation.relation = equation'.relation
  terms : equation.form.terms.Perm equation'.form.terms
  bound : equation.bound = equation'.bound

section

variable {table other : SymbolTable} {equation single : Equation Float}
  (named : equation.IsNamed table) (relation : single.relation = equation.relation)
  (terms : single.form.terms = (equation.terms table).map (symbolTerm other))
  (bound : single.bound = equation.bound)

include named relation terms bound

/-- An equation matches the one whose named terms it has. -/
theorem matches_of_symbolTerms
    (known : ∀ term ∈ equation.terms table, term.1 ∈ other.names) :
    Matches table other equation single := by
  have named' : single.IsNamed other := by
    intro term member
    rw [terms] at member
    obtain ⟨named, among, rfl⟩ := List.mem_map.mp member
    exact ⟨named.1, SymbolTable.name?_intern (known named among)⟩
  have sorted : single.namedTerms other = equation.terms table := by
    have unchanged : ∀ term ∈ equation.terms table,
        (other.nameOf (other.intern term.1).1, term.2) = term := by
      intro term member
      rw [SymbolTable.nameOf_intern (known term member)]
    rw [namedTerms, terms, List.map_map]
    exact (List.map_congr_left unchanged).trans (List.map_id' _)
  apply matches_of_perm relation.symm named named' _ bound.symm
  rw [sorted]
  exact (Text.sortByName_perm _).symm

/-- Where the names keep their symbols the terms are the same. -/
theorem same_of_symbolTerms (grown : table.Extends other) : Same equation single := by
  have unchanged : ∀ term ∈ equation.form.terms,
      symbolTerm other (table.nameOf term.1, term.2) = term := by
    intro term member
    obtain ⟨name, isName⟩ := named term member
    have kept : other.name? term.1 = some name := grown.name?_eq isName
    have nameOf : table.nameOf term.1 = name := by rw [SymbolTable.nameOf, isName, Option.getD_some]
    have isKnown : name ∈ other.names := List.mem_of_getElem? kept
    rw [symbolTerm, nameOf, SymbolTable.name?_injective (SymbolTable.name?_intern isKnown) kept]
  have listed : (equation.namedTerms table).map (symbolTerm other) = equation.form.terms := by
    rw [namedTerms, List.map_map]
    exact (List.map_congr_left unchanged).trans (List.map_id' _)
  refine ⟨relation.symm, ?_, bound.symm⟩
  rw [terms]
  nth_rewrite 1 [← listed]
  exact ((Text.sortByName_perm _).map _).symm

end

/-! ### The names of a line -/

theorem mem_terms_of_mem_items {table : SymbolTable} {equation : Equation Float} {name : String}
    (member : (.name, name) ∈ equation.items table) :
    ∃ term ∈ equation.terms table, term.1 = name := by
  have noNumber (x : Float) : (Kind.name, name) ∉ numberItems x := by
    rw [numberItems]
    split <;> simp
  have ofLater {term : String × Float} (among : (Kind.name, name) ∈ laterItems term) :
      term.1 = name := by
    rw [laterItems, signItem] at among
    split at among <;> simpa [eq_comm] using among
  rw [items, List.mem_append, List.mem_cons] at member
  rcases member with left | ⟨⟨⟩⟩ | bound
  · cases listed : equation.terms table with
    | nil => simp [listed, leftItems] at left
    | cons term rest =>
      rw [listed, leftItems, firstItems, List.mem_append, List.mem_append] at left
      rcases left with (number | here) | later
      · exact absurd number (noNumber _)
      · exact ⟨term, List.mem_cons_self, by simpa [eq_comm] using here⟩
      · obtain ⟨term', among, inside⟩ := List.mem_flatMap.mp later
        exact ⟨term', List.mem_cons_of_mem _ among, ofLater inside⟩
  · exact absurd bound (noNumber _)

theorem mem_items_of_mem_terms {table : SymbolTable} {equation : Equation Float}
    {term : String × Float} (member : term ∈ equation.terms table) :
    (.name, term.1) ∈ equation.items table := by
  rw [items]
  apply List.mem_append_left
  cases listed : equation.terms table with
  | nil => simp [listed] at member
  | cons first rest =>
    rw [listed] at member
    rw [leftItems, firstItems]
    rcases List.mem_cons.mp member with rfl | among
    · simp
    · apply List.mem_append_right
      exact List.mem_flatMap.mpr ⟨term, among, by simp [laterItems]⟩

theorem mem_names_of_mem_terms {table : SymbolTable} {equation : Equation Float}
    (named : equation.IsNamed table) {term : String × Float}
    (member : term ∈ equation.terms table) : term.1 ∈ table.names := by
  have among := (Text.sortByName_perm _).subset member
  obtain ⟨symbolTerm, inside, rfl⟩ := List.mem_map.mp among
  obtain ⟨name, isName⟩ := named symbolTerm inside
  have nameOf : table.nameOf symbolTerm.1 = name := by
    rw [SymbolTable.nameOf, isName, Option.getD_some]
  change table.nameOf symbolTerm.1 ∈ table.names
  rw [nameOf]
  exact List.mem_of_getElem? isName

theorem isCommaItem_items (equation : Equation Float) (table : SymbolTable) :
    ∀ item ∈ equation.items table, isCommaItem item = false := by
  obtain ⟨left, relation, right, kinds, leftSide, rightSide⟩ := isEquation_items equation table
  intro item member
  have among : item.1 ∈ left ++ .relation relation :: right := kinds ▸ List.mem_map_of_mem member
  rw [isCommaItem, beq_eq_false_iff_ne]
  intro isComma
  rw [isComma, List.mem_append, List.mem_cons] at among
  rcases among with onLeft | isRelation | onRight
  · cases leftSide.onSide _ onLeft
  · cases isRelation
  · cases rightSide.onSide _ onRight

end Equation

/-! ### Lists of equations -/

theorem mem_intercalate {parts : List Items} {item : Kind × String} (other : item ≠ (.comma, ","))
    (member : item ∈ ([(.comma, ",")].intercalate parts : Items)) :
    ∃ part ∈ parts, item ∈ part := by
  induction parts with
  | nil => cases member
  | cons part rest ih =>
    cases rest with
    | nil => exact ⟨part, List.mem_cons_self, by simpa using member⟩
    | cons next others =>
      rw [List.intercalate_cons_cons, List.mem_append, List.mem_append,
        List.mem_singleton] at member
      rcases member with (here | comma) | later
      · exact ⟨part, List.mem_cons_self, here⟩
      · exact absurd comma other
      · obtain ⟨found, among, inside⟩ := ih later
        exact ⟨found, List.mem_cons_of_mem part among, inside⟩

namespace Source

/-- The lexemes of lines with commas between them. -/
def lineItems (table : SymbolTable) (equations : List (Equation Float)) : Items :=
  [(.comma, ",")].intercalate (equations.map fun equation => equation.items table)

section

variable {table : SymbolTable} {equations : List (Equation Float)}

theorem splitOnP_lineItems (nonempty : equations ≠ []) :
    (lineItems table equations).splitOnP isCommaItem =
      equations.map fun equation => equation.items table := by
  apply splitOnP_intercalate
  · simpa using nonempty
  · intro part member
    obtain ⟨equation, -, rfl⟩ := List.mem_map.mp member
    exact equation.isCommaItem_items table

theorem isEquationList_lineItems : IsEquationList ((lineItems table equations).map Prod.fst) := by
  by_cases empty : equations = []
  · -- No lines make the empty text, which is a list of no equations.
    left
    rw [empty]
    rfl
  · have nonempty : lineItems table equations ≠ [] := by
      intro nothing
      obtain ⟨equation, member⟩ := List.exists_mem_of_ne_nil equations empty
      have part := List.mem_map_of_mem (f := fun equation => equation.items table) member
      rw [← splitOnP_lineItems empty, nothing, List.splitOnP_nil, List.mem_singleton] at part
      have isEquation := equation.isEquation_items table
      rw [part] at isEquation
      exact not_isEquation_nil isEquation
    rw [isEquationList_iff nonempty, splitOnP_lineItems empty]
    intro part member
    obtain ⟨equation, -, rfl⟩ := List.mem_map.mp member
    exact equation.isEquation_items table

variable (printable : ∀ equation ∈ equations, equation.IsPrintable table)

include printable

theorem readsAs_lines :
    ReadsAs (", ".intercalate (equations.map fun equation => equation.render table)).toList
      (lineItems table equations) := by
  rw [String.toList_intercalate, List.map_map]
  apply readsAs_intercalate
  rw [List.forall₂_map_left_iff, List.forall₂_map_right_iff, List.forall₂_same]
  intro equation member
  exact Equation.readsAs_render (printable equation member)

/-- The lexemes of lines make the equations that were printed. -/
theorem forall₂_lineItems {after : SymbolTable}
    (known : ∀ name, (.name, name) ∈ lineItems table equations → name ∈ after.names) :
    List.Forall₂
      (fun equation single => Equation.Matches table after equation single ∧
        (table.Extends after → Equation.Same equation single))
      equations (Items.equations after (lineItems table equations)) := by
  by_cases empty : equations = []
  · subst empty
    exact .nil
  · have parts : List.Forall₂ (fun equation part => part = equation.items table) equations
        ((lineItems table equations).splitOnP isCommaItem) := by
      rw [splitOnP_lineItems empty, List.forall₂_map_right_iff, List.forall₂_same]
      exact fun _ _ => rfl
    apply forall₂_flatMap_of_forall₂ parts
    rintro equation member _ among rfl
    have here := printable equation member
    have knownTerms : ∀ term ∈ equation.terms table, term.1 ∈ after.names := by
      intro term inside
      apply known
      exact (mem_of_mem_splitOnP among (Equation.mem_items_of_mem_terms inside)).1
    obtain ⟨single, made, relation, terms, bound⟩ := Equation.exists_printed here knownTerms
    refine ⟨single, made, ?_, ?_⟩
    · exact Equation.matches_of_symbolTerms here.named relation terms bound knownTerms
    · exact Equation.same_of_symbolTerms here.named relation terms bound

/-- Lines have no names but those of the table that they are printed with. -/
theorem mem_names_of_mem_lineItems {name : String}
    (member : (.name, name) ∈ lineItems table equations) : name ∈ table.names := by
  obtain ⟨part, among, inside⟩ := mem_intercalate (by simp) member
  obtain ⟨equation, printed, rfl⟩ := List.mem_map.mp among
  obtain ⟨term, listed, rfl⟩ := Equation.mem_terms_of_mem_items inside
  exact Equation.mem_names_of_mem_terms (printable equation printed).named listed

/-- A list of equations that is printed, with commas between them, is parsed to these equations, in
order and with the same relations, coefficients and bounds. Names that are known already keep their
symbols, and then the equations are the same. -/
theorem parse_render (start : SymbolTable) :
    ∃ result after,
      parse start (", ".intercalate (equations.map fun equation => equation.render table)) =
        (.ok result, after) ∧
      List.Forall₂ (Equation.Matches table after) equations result ∧
      (table.Extends start → after = start ∧ List.Forall₂ Equation.Same equations result) := by
  have reads := readsAs_lines printable
  have each := forall₂_lineItems printable fun name member =>
    @Piece.mem_ofTokens _ Numeral.readFloat? start _ name member
  refine ⟨_, _, parse_eq_ok.mpr ⟨_, reads, isEquationList_lineItems, rfl, rfl⟩, ?_, ?_⟩
  · exact each.imp fun _ _ both => both.1
  · intro grown
    have unchanged : (Piece.ofTokens Numeral.readFloat? start (lineItems table equations)).2 =
        start := by
      apply Piece.table_of_known
      intro name member
      exact grown.subset (mem_names_of_mem_lineItems printable member)
    rw [unchanged] at each ⊢
    exact ⟨rfl, each.imp fun _ _ both => both.2 grown⟩

end

/-- A table with two names. -/
def twoNames : SymbolTable := ⟨["x", "e1"], by decide⟩

/-- Two equations over these names, of which one has a negative coefficient and a negative bound. -/
def twoLines : List (Equation Float) :=
  [⟨.equal, ⟨[(⟨0⟩, 2)], by decide⟩, 4⟩, ⟨.atMost, ⟨[(⟨1⟩, -0.5)], by decide⟩, -1⟩]

/-- Two equations are printed to two lines, which are parsed to them. -/
theorem parse_twoLines :
    (∀ equation ∈ twoLines, equation.IsPrintable twoNames) ∧
      ", ".intercalate (twoLines.map fun equation => equation.render twoNames) =
        "2 x = 4, -0.5 e1 <= -1" ∧
      ∃ result, parse twoNames "2 x = 4, -0.5 e1 <= -1" = (.ok result, twoNames) ∧
        List.Forall₂ Equation.Same twoLines result := by
  have printable : ∀ equation ∈ twoLines, equation.IsPrintable twoNames := by
    refine List.forall_mem_cons.mpr ⟨?_, List.forall_mem_singleton.mpr ?_⟩
    · have name : Lexeme.Spells .name "x".toList := ⟨'x', [], by decide, by decide, by simp⟩
      exact ⟨List.forall_mem_singleton.mpr ⟨"x", by decide⟩,
        List.forall_mem_singleton.mpr ⟨name, by decide, by decide⟩, by decide, by decide⟩
    · have name : Lexeme.Spells .name "e1".toList :=
        ⟨'e', ['1'], by decide, by decide, List.forall_mem_singleton.mpr (by decide)⟩
      exact ⟨List.forall_mem_singleton.mpr ⟨"e1", by decide⟩,
        List.forall_mem_singleton.mpr ⟨name, by decide, by decide⟩, by decide, by decide⟩
  have printed : ", ".intercalate (twoLines.map fun equation => equation.render twoNames) =
      "2 x = 4, -0.5 e1 <= -1" := by decide +kernel
  obtain ⟨result, after, parsed, -, same⟩ := parse_render printable twoNames
  obtain ⟨rfl, equations⟩ := same twoNames.extends_refl
  rw [printed] at parsed
  exact ⟨printable, printed, result, parsed, equations⟩

end Source

end LinearSystem
