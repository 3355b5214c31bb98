import LinearSystem.Proofs.Equation.Meaning
import LinearSystem.Proofs.Lexical.Reading
import LinearSystem.Source
/-!
Parsing keeps the meaning of a source.

If a source is parsed, then with exact numbers it is parsed as well, to equations with the same
relations, and these hold under the same assignments as what is written
(`Source.parse_keeps_meaning`).
-/
namespace LinearSystem

open Grammar Items

namespace Source

/-- What stands between the commas of a source that is well formed. -/
def relations (source : String) : List Items :=
  match chain source with
  | .ok chain => Items.relations chain.items.tail.dropLast
  | .error _ => []

theorem chain_eq_ok {source : String} {result : Chain} :
    chain source = .ok result ↔ Chain.ofSource source = .ok result ∧ result.check = .ok () := by
  unfold chain
  constructor
  · intro read
    split at read
    · cases read
    next found ofSource =>
      split at read
      · cases read
      next accepted =>
        cases read
        exact ⟨ofSource, accepted⟩
  · rintro ⟨read, accepted⟩
    simp only [read, accepted]

/-- A source is parsed if it has a chain, to the equations of this chain. -/
theorem parseWith_eq_ok {α : Type} [OfNat α 0] [OfNat α 1] [Add α] [Sub α] [Mul α] [Neg α] [BEq α]
    {read : String → Option α} {table after : SymbolTable} {source : String}
    {equations : List (Equation α)} :
    parseWith read table source = (.ok equations, after) ↔
      ∃ result, chain source = .ok result ∧ result.equations read table = (equations, after) := by
  unfold parseWith
  cases lexed : chain source with
  | error diagnostic => simp
  | ok result =>
    simp [Prod.ext_iff]

/-- The table that a text leaves behind does not depend on how numbers are read. -/
theorem table_ofTokens {α β : Type} (read : String → Option α) (other : String → Option β)
    (table : SymbolTable) (items : Items) :
    (Piece.ofTokens read table items).2 = (Piece.ofTokens other table items).2 := by
  induction items generalizing table with
  | nil => rfl
  | cons item rest ih =>
    -- Only names go into the table.
    have same : (Piece.ofToken read table item.1 item.2).2 =
        (Piece.ofToken other table item.1 item.2).2 := by
      cases item.1 <;> rfl
    rw [Piece.ofTokens_cons, Piece.ofTokens_cons, same, ih]

theorem isSome_readRat? {text : String} (literal : Literal.IsLiteral text.toList) :
    (Numeral.readRat? text).isSome = true := by
  obtain ⟨⟨whole, fraction, exponent, same, parts⟩, -⟩ := literal
  have said := Numeral.readRat?_parts parts
  rw [← same, String.ofList_toList] at said
  rw [said]
  rfl

/-- What stands between the ends of a chain that was read is known to its table. -/
theorem known_of_ofSource {source : String} {chain : Chain} {inner : Items} {table : SymbolTable}
    (read : Chain.ofSource source = .ok chain) (among : ∀ item ∈ inner, item ∈ chain.items) :
    Known (Piece.ofTokens Numeral.readRat? table chain.items).2 inner := by
  constructor
  · intro text member
    -- A number is no end of the source, so its text was read as a numeral.
    rcases Chain.spells_items read _ (among _ member) with ended | ended | literal
    · cases ended
    · cases ended
    · exact isSome_readRat? literal
  · intro text member
    exact Piece.mem_ofTokens Numeral.readRat? (among _ member)

theorem exists_inner {chain : Chain} (integral : chain.Integral) :
    ∃ first last, chain.items =
        (.startOfInput, first) :: (chain.items.tail.dropLast ++ [(.endOfInput, last)]) ∧
      chain.items.tail.dropLast.map Prod.fst = chain.innerKinds := by
  obtain ⟨first, between, last, listed, starts, ends, -⟩ := integral.exists_between
  refine ⟨first.value, last.value, ?_, ?_⟩
  · simp [Chain.items, listed, starts, ends]
  · simp [Chain.items, Chain.innerKinds, List.map_tail, List.map_dropLast, Function.comp_def]

theorem equations_eq {α : Type} [OfNat α 0] [OfNat α 1] [Add α] [Sub α] [Mul α] [Neg α] [BEq α]
    {chain : Chain} {inner : Items} {first last : String} (read : String → Option α)
    (table : SymbolTable)
    (items : chain.items = (.startOfInput, first) :: (inner ++ [(.endOfInput, last)])) :
    (chain.equations read table).1 = (Builder.fresh true).equations
      (inner.map (Piece.ofItem read (Piece.ofTokens read table chain.items).2) ++
        [.endOfInput]) := by
  let after := (Piece.ofTokens read table chain.items).2
  -- With the table at the end of the text every token is read by itself.
  have pieces : (Piece.ofTokens read table chain.items).1 =
      .startOfInput :: (inner.map (Piece.ofItem read after) ++ [.endOfInput]) := by
    rw [Piece.ofTokens_eq_map read _ after.extends_refl, items]
    simp [Piece.ofItem, Piece.ofToken]
  have collected : (chain.equations read table).1 =
      (Builder.fresh true).equations (Piece.ofTokens read table chain.items).1 := rfl
  rw [collected, pieces]
  rfl

theorem inner_of_integral {chain : Chain} (integral : chain.Integral) :
    ∀ item ∈ chain.items.tail.dropLast, item.1 ≠ .startOfInput ∧ item.1 ≠ .endOfInput := by
  obtain ⟨first, last, -, kinds⟩ := exists_inner integral
  intro item member
  apply integral.kinds_eq.2
  rw [← kinds]
  exact List.mem_map_of_mem member

/-- The equations of a chain have the relations that its kinds state, whatever its numbers are. -/
theorem relations_of_chain {α : Type} [OfNat α 0] [OfNat α 1] [Add α] [Sub α] [Mul α] [Neg α]
    [BEq α] (read : String → Option α) (table : SymbolTable) {chain : Chain}
    (integral : chain.Integral) :
    (chain.equations read table).1.map Equation.relation =
      statedRelations none chain.innerKinds := by
  obtain ⟨first, last, items, kinds⟩ := exists_inner integral
  let after := (Piece.ofTokens read table chain.items).2
  have inner : ∀ piece ∈ chain.items.tail.dropLast.map (Piece.ofItem read after),
      piece.kind ≠ .startOfInput ∧ piece.kind ≠ .endOfInput := by
    intro piece member
    obtain ⟨item, present, rfl⟩ := List.mem_map.mp member
    simpa using inner_of_integral integral item present
  rw [equations_eq read table items, Builder.map_relation_equations inner fun _ => rfl, ← kinds]
  simp [Function.comp_def, Builder.fresh]

/-- With exact numbers, the equations of a chain that is accepted hold when its parts do. -/
theorem forall₂_of_chain {source : String} {result : Chain} (table : SymbolTable)
    (lexed : chain source = .ok result)
    (complete : ∀ part ∈ relations source, ∀ term ∈ part.left.terms ++ part.right.terms,
      HasFactor term.2) :
    List.Forall₂ (fun part equation => ∀ assignment, part.Holds assignment ↔
        equation.Holds assignment (result.equations Numeral.readRat? table).2)
      (relations source) (result.equations Numeral.readRat? table).1 := by
  obtain ⟨read, accepted⟩ := chain_eq_ok.mp lexed
  have integral := Chain.integral_of_check accepted
  obtain ⟨first, last, items, kinds⟩ := exists_inner integral
  have parts : relations source = Items.relations result.items.tail.dropLast := by
    simp only [relations, lexed]
  have equations : IsEquationList (result.items.tail.dropLast.map Prod.fst) :=
    kinds ▸ integral.accepted_iff.mp accepted
  have known := @known_of_ofSource source result result.items.tail.dropLast table read
    fun item member => List.mem_of_mem_tail (List.dropLast_subset _ member)
  rw [parts] at complete
  rw [parts, equations_eq Numeral.readRat? table items]
  exact Builder.forall₂_equations (inner_of_integral integral) equations known complete

/-- A source that is parsed is parsed with exact numbers too, to equations with the same relations
and the same variables; and if every term has a number or a variable, each of these equations holds
under the same assignments as the part of the source that it comes from. -/
theorem parse_keeps_meaning {table after : SymbolTable} {source : String}
    {equations : List (Equation Float)} (parsed : parse table source = (.ok equations, after))
    (complete : ∀ part ∈ relations source, ∀ term ∈ part.left.terms ++ part.right.terms,
      HasFactor term.2) :
    ∃ exact, parseWith Numeral.readRat? table source = (.ok exact, after) ∧
      exact.map Equation.relation = equations.map Equation.relation ∧
      List.Forall₂ (fun part equation => ∀ assignment, part.Holds assignment ↔
        equation.Holds assignment after) (relations source) exact := by
  obtain ⟨result, lexed, built⟩ := parseWith_eq_ok.mp parsed
  obtain ⟨-, accepted⟩ := chain_eq_ok.mp lexed
  have integral := Chain.integral_of_check accepted
  -- How numbers are read decides neither the table nor the relations.
  have tables : (result.equations Numeral.readRat? table).2 = after := by
    have same := congrArg Prod.snd built
    exact (table_ofTokens _ _ table result.items).trans same
  have stated := relations_of_chain Numeral.readFloat? table integral
  rw [built] at stated
  refine ⟨(result.equations Numeral.readRat? table).1, ?_, ?_, ?_⟩
  · exact parseWith_eq_ok.mpr ⟨result, lexed, Prod.ext rfl tables⟩
  · rw [stated, relations_of_chain Numeral.readRat? table integral]
  · rw [← tables]
    exact forall₂_of_chain table lexed complete

/-- How `2x = 4` is cut into lexemes. -/
def twoX : Reading "2x = 4" where
  lead := []
  body := [(⟨.coefficient, ['2']⟩, []), (⟨.name, ['x']⟩, [' ']),
    (⟨.relation .equal, ['=']⟩, [' ']), (⟨.coefficient, ['4']⟩, [])]
  layout := by simp
  formed :=
    ⟨Literal.isLiteral_of_digit rfl (by decide) rfl, by simp, fun _ => rfl,
      ⟨'x', [], rfl, rfl, by simp⟩, by simp [Text.isLayout, Text.isBlank], fun _ => rfl,
      .inl rfl, by simp [Text.isLayout, Text.isBlank], fun _ => rfl,
      Literal.isLiteral_of_digit rfl (by decide) rfl, by simp, fun _ => rfl, trivial⟩
  whole := rfl

theorem chain_twoX : chain "2x = 4" =
    .ok (Chain.link (.unlinked .startOfInput [] .start .start ::
      twoX.body.tokens .start twoX.lead)) := by
  apply chain_eq_ok.mpr
  constructor
  · rw [Chain.ofSource_eq_ok]
    exact ⟨twoX, rfl⟩
  · decide +kernel

theorem parse_twoX : ∃ equations after exact,
    parse .empty "2x = 4" = (.ok equations, after) ∧
      (∀ part ∈ relations "2x = 4", ∀ term ∈ part.left.terms ++ part.right.terms,
        HasFactor term.2) ∧
      parseWith Numeral.readRat? .empty "2x = 4" = (.ok exact, after) ∧
      exact.map Equation.relation = equations.map Equation.relation ∧
      List.Forall₂ (fun part equation => ∀ assignment, part.Holds assignment ↔
        equation.Holds assignment after) (relations "2x = 4") exact := by
  obtain ⟨result, lexed⟩ : ∃ result, chain "2x = 4" = .ok result := ⟨_, chain_twoX⟩
  have parsed : parse .empty "2x = 4" = (.ok (result.equations Numeral.readFloat? .empty).1,
      (result.equations Numeral.readFloat? .empty).2) :=
    parseWith_eq_ok.mpr ⟨result, lexed, Prod.mk.eta.symm⟩
  have parts : relations "2x = 4" =
      [[(.coefficient, "2"), (.name, "x"), (.relation .equal, "="), (.coefficient, "4")]] := by
    simp only [relations, chain_twoX]
    decide +kernel
  have complete : ∀ part ∈ relations "2x = 4", ∀ term ∈ part.left.terms ++ part.right.terms,
      HasFactor term.2 := by
    rw [parts]
    decide
  obtain ⟨exact, meaning⟩ := parse_keeps_meaning parsed complete
  exact ⟨_, _, exact, parsed, complete, meaning⟩

end Source

end LinearSystem
