import LinearSystem.Proofs.Equation.Parsed
/-!
Equations in one source do not influence each other.

A source with something written in it can be parsed if and only if each of the texts between its
commas can be parsed to one equation, and its equations are the ones of these texts
(`Source.parse_pieces`). They are compared by names, since the numbers of names depend on what was
read before.
-/
namespace LinearSystem

open Grammar

namespace Items

/-- The names of items are known to the table that they leave behind, and the equation that they
make does not depend on it but for the numbers of names. -/
theorem exists_matching {table other : SymbolTable} {part : Items} {equation : Equation Float}
    (made : equation? table part = some equation)
    (known : ∀ text, (.name, text) ∈ part → text ∈ table.names ∧ text ∈ other.names) :
    ∃ single, equation? other part = some single ∧
      Equation.Matches table other equation single := by
  have both := equation?_alike known
  rw [made] at both
  generalize equation? other part = found at both ⊢
  cases both with
  | some alike => exact ⟨_, rfl, alike.toMatches⟩

end Items

namespace Source

/-! ### A text without commas -/

/-- The texts between the commas of a source. -/
def pieces (source : String) : List String := (source.toList.splitOn ',').map String.ofList

theorem isEquationList_single {part : Items} (isEquation : IsEquation (part.map Prod.fst))
    (single : ∀ item ∈ part, isCommaItem item = false) :
    IsEquationList (part.map Prod.fst) := by
  have noComma : Kind.comma ∉ part.map Prod.fst := by
    intro member
    obtain ⟨item, among, isComma⟩ := List.mem_map.mp member
    have other := beq_eq_false_iff_ne.mp (single item among)
    exact other isComma
  right
  rw [List.splitOn_eq_singleton noComma]
  simpa using isEquation

/-- A text that is read as one equation is parsed to it, with any table. -/
theorem parse_single {text : List Char} {part : Items} (noComma : ',' ∉ text)
    (reads : ReadsAs text part) (isEquation : IsEquation (part.map Prod.fst))
    (table : SymbolTable) :
    ∃ single, parse table (String.ofList text) =
        (.ok [single], (Piece.ofTokens Numeral.readFloat? table part).2) ∧
      Items.equation? (Piece.ofTokens Numeral.readFloat? table part).2 part = some single := by
  have noCommas := reads.isCommaItem_eq_false noComma
  obtain ⟨single, made⟩ :=
    Items.exists_equation (Piece.ofTokens Numeral.readFloat? table part).2 isEquation
  refine ⟨single, parse_eq_ok.mpr ⟨part, ?_, ?_, rfl, ?_⟩, made⟩
  · rwa [String.toList_ofList]
  · exact isEquationList_single isEquation noCommas
  · simp [Items.equations, List.splitOnP_eq_singleton noCommas, made]

/-- A text without commas that is parsed to an equation is read as one. -/
theorem isEquation_of_parse_single {table after : SymbolTable} {text : List Char}
    {equation : Equation Float} (noComma : ',' ∉ text)
    (parsed : parse table (String.ofList text) = (.ok [equation], after)) :
    ∃ part, ReadsAs text part ∧ IsEquation (part.map Prod.fst) := by
  obtain ⟨part, reads, list, -, made⟩ := parse_eq_ok.mp parsed
  rw [String.toList_ofList] at reads
  refine ⟨part, reads, ?_⟩
  rcases list with empty | equations
  · -- Nothing makes no equation.
    obtain rfl : part = [] := List.map_eq_nil_iff.mp empty
    cases made
  · apply equations
    have noCommas := reads.isCommaItem_eq_false noComma
    have noKind : ∀ kind ∈ part.map Prod.fst, (kind == .comma) = false := by
      intro kind member
      obtain ⟨item, among, rfl⟩ := List.mem_map.mp member
      exact noCommas item among
    rw [List.splitOn_eq_splitOnP, List.splitOnP_eq_singleton noKind]
    exact List.mem_singleton_self _

/-! ### Texts between commas -/

theorem comma_notMem_of_splitOn {text piece : List Char} (among : piece ∈ text.splitOn ',') :
    ',' ∉ piece := by
  intro comma
  rw [List.splitOn_eq_splitOnP] at among
  have other := (mem_of_mem_splitOnP among comma).2
  cases other

/-- Between the commas of a list of equations that is not empty stand equations. -/
theorem isEquationList_iff {items : Items} (nonempty : items ≠ []) :
    IsEquationList (items.map Prod.fst) ↔
      ∀ part ∈ items.splitOnP isCommaItem, IsEquation (part.map Prod.fst) := by
  have parts : (items.map Prod.fst).splitOn .comma =
      (items.splitOnP isCommaItem).map (List.map Prod.fst) := by
    rw [List.splitOn_eq_splitOnP, splitOnP_map]
    rfl
  rw [IsEquationList, parts, List.map_eq_nil_iff]
  simp [nonempty]

theorem forall₂_flatMap_of_forall₂ {α β γ : Type} {related : α → β → Prop} {holds : α → γ → Prop}
    {result : β → Option γ} {list : List α} {others : List β}
    (both : List.Forall₂ related list others)
    (each : ∀ element ∈ list, ∀ other ∈ others, related element other →
      ∃ value, result other = some value ∧ holds element value) :
    List.Forall₂ holds list (others.flatMap fun other => (result other).toList) := by
  induction both with
  | nil => exact .nil
  | cons here _ ih =>
    obtain ⟨value, found, meaning⟩ :=
      each _ List.mem_cons_self _ List.mem_cons_self here
    have later := ih fun element member other among =>
      each element (List.mem_cons_of_mem _ member) other (List.mem_cons_of_mem _ among)
    rw [List.flatMap_cons, found]
    exact .cons meaning later

/-- The equations of a text are those of the texts between its commas. -/
theorem forall₂_equations {text : List Char} {items : Items} {after : SymbolTable}
    (reads : ReadsAs text items) (nonempty : items ≠ [])
    (list : IsEquationList (items.map Prod.fst))
    (known : ∀ name, (.name, name) ∈ items → name ∈ after.names) :
    List.Forall₂ (fun piece equation => ∀ other, ∃ single later,
        parse other (String.ofList piece) = (.ok [single], later) ∧
          Equation.Matches after later equation single)
      (text.splitOn ',') (Items.equations after items) := by
  apply forall₂_flatMap_of_forall₂ reads.splitOn
  intro piece among part amongParts partReads
  have isEquation := (isEquationList_iff nonempty).mp list part amongParts
  obtain ⟨equation, made⟩ := Items.exists_equation after isEquation
  refine ⟨equation, made, ?_⟩
  intro other
  obtain ⟨single, parsed, alone⟩ :=
    parse_single (comma_notMem_of_splitOn among) partReads isEquation other
  obtain ⟨single', alone', same⟩ := Items.exists_matching made fun name member =>
    ⟨known name (mem_of_mem_splitOnP amongParts member).1,
      Piece.mem_ofTokens Numeral.readFloat? member⟩
  obtain rfl := Option.some.inj (alone'.symm.trans alone)
  exact ⟨single', _, parsed, same⟩

/-- A source with something written in it is parsed if and only if each of the texts between its
commas is parsed to one equation, with whatever tables; and then its equations are these, one by one
and in order, with the same relations, coefficients and bounds. -/
theorem parse_pieces {source : String} (written : ∃ c ∈ source.toList, Text.isLayout c = false)
    (table : SymbolTable) (tables : String → SymbolTable) :
    ((∃ equations after, parse table source = (.ok equations, after)) ↔
      ∀ piece ∈ pieces source, ∃ equation later,
        parse (tables piece) piece = (.ok [equation], later)) ∧
    ∀ equations after, parse table source = (.ok equations, after) →
      List.Forall₂ (fun piece equation => ∀ other, ∃ single later,
          parse other piece = (.ok [single], later) ∧
            Equation.Matches after later equation single)
        (pieces source) equations := by
  -- Where something is written, something is read.
  have nonempty {items : Items} (reads : ReadsAs source.toList items) : items ≠ [] := by
    rintro rfl
    obtain ⟨c, member, noLayout⟩ := written
    rw [reads.isLayout c member] at noLayout
    cases noLayout
  have single : ∀ equations after, parse table source = (.ok equations, after) →
      List.Forall₂ (fun piece equation => ∀ other, ∃ single later,
          parse other piece = (.ok [single], later) ∧
            Equation.Matches after later equation single)
        (pieces source) equations := by
    intro equations after parsed
    obtain ⟨items, reads, list, rfl, rfl⟩ := parse_eq_ok.mp parsed
    rw [pieces, List.forall₂_map_left_iff]
    exact forall₂_equations reads (nonempty reads) list fun name member =>
      Piece.mem_ofTokens Numeral.readFloat? member
  refine ⟨⟨?_, ?_⟩, single⟩
  · rintro ⟨equations, after, parsed⟩ piece member
    obtain ⟨equation, -, alone⟩ := exists_of_forall₂ (single equations after parsed) member
    obtain ⟨found, later, parsedAlone, -⟩ := alone (tables piece)
    exact ⟨found, later, parsedAlone⟩
  · intro each
    have readable : ∀ piece ∈ source.toList.splitOn ',',
        ∃ part, ReadsAs piece part ∧ IsEquation (part.map Prod.fst) := by
      intro piece member
      obtain ⟨equation, later, parsed⟩ := each _ (List.mem_map_of_mem member)
      exact isEquation_of_parse_single (comma_notMem_of_splitOn member) parsed
    obtain ⟨items, reads⟩ := exists_readsAs_of_splitOn fun piece member =>
      (readable piece member).imp fun _ both => both.1
    have list : IsEquationList (items.map Prod.fst) := by
      rw [isEquationList_iff (nonempty reads)]
      intro part among
      obtain ⟨piece, member, partReads⟩ := exists_of_forall₂ reads.splitOn.flip among
      obtain ⟨part', reads', isEquation⟩ := readable piece member
      rwa [ReadsAs.unique partReads reads']
    exact ⟨_, _, parse_eq_ok.mpr ⟨items, reads, list, rfl, rfl⟩⟩

theorem isLayout_nil : ∀ c ∈ [], Text.isLayout c = true := List.forall_mem_nil _

/-- How `x=1,y=2` is cut into lexemes. -/
def twoEquations : Reading "x=1,y=2" where
  lead := []
  body := [(⟨.name, ['x']⟩, []), (⟨.relation .equal, ['=']⟩, []), (⟨.coefficient, ['1']⟩, []),
    (⟨.comma, [',']⟩, []), (⟨.name, ['y']⟩, []), (⟨.relation .equal, ['=']⟩, []),
    (⟨.coefficient, ['2']⟩, [])]
  layout := isLayout_nil
  formed :=
    ⟨⟨'x', [], rfl, rfl, by simp⟩, isLayout_nil, fun _ => rfl, .inl rfl, isLayout_nil,
      fun _ => rfl, Literal.isLiteral_of_digit rfl (by decide) rfl, isLayout_nil, fun _ => rfl, rfl,
      isLayout_nil, fun _ => rfl, ⟨'y', [], rfl, rfl, by simp⟩, isLayout_nil, fun _ => rfl,
      .inl rfl, isLayout_nil, fun _ => rfl, Literal.isLiteral_of_digit rfl (by decide) rfl,
      isLayout_nil, fun _ => rfl, trivial⟩
  whole := rfl

/-- The two equations of `x=1,y=2` are those of `x=1` and `y=2`. -/
theorem pieces_twoEquations : ∃ equations after,
    (∃ c ∈ "x=1,y=2".toList, Text.isLayout c = false) ∧
      parse .empty "x=1,y=2" = (.ok equations, after) ∧
      List.Forall₂ (fun piece equation => ∀ other, ∃ single later,
          parse other piece = (.ok [single], later) ∧
            Equation.Matches after later equation single) ["x=1", "y=2"] equations := by
  have written : ∃ c ∈ "x=1,y=2".toList, Text.isLayout c = false := ⟨'x', by simp, rfl⟩
  have lexed : chain "x=1,y=2" = .ok (Chain.link (.unlinked .startOfInput [] .start .start ::
      twoEquations.body.tokens .start twoEquations.lead)) := by
    apply chain_eq_ok.mpr
    constructor
    · rw [Chain.ofSource_eq_ok]
      exact ⟨twoEquations, rfl⟩
    · decide +kernel
  have parsed := parseWith_eq_ok.mpr ⟨_, lexed, (Prod.mk.eta
    (p := Chain.equations Numeral.readFloat? .empty _)).symm⟩
  have cut : pieces "x=1,y=2" = ["x=1", "y=2"] := by decide +kernel
  have alone := (parse_pieces written .empty fun _ => .empty).2 _ _ parsed
  rw [cut] at alone
  exact ⟨_, _, written, parsed, alone⟩

end Source

end LinearSystem
