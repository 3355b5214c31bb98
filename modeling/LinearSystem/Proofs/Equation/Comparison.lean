import LinearSystem.Proofs.Chain.Comparison
import LinearSystem.Proofs.Chain.Linked
import LinearSystem.Proofs.Equation.Parts
import LinearSystem.Source
/-!
Two sources side by side.

Of a checked chain the building of equations reads the kinds of the tokens and the texts of numbers
and names, and nothing else. So sources whose chains agree in these are parsed to the same equations
(`Source.parsesAlike_of_chain`): with one and the same table, and also one after the other, since a
source that is parsed again has the same outcome (`Source.parse_again`).
-/
namespace LinearSystem

/-- Items of one kind and, where the text counts, of one text. -/
def SameMeaning (item item' : Kind × String) : Prop :=
  item.1 = item'.1 ∧ (item.1 = .coefficient ∨ item.1 = .name → item.2 = item'.2)

theorem Chain.forall₂_items {related : Kind × String → Kind × String → Prop}
    {chain chain' : Chain} :
    List.Forall₂ related chain.items chain'.items ↔
      List.Forall₂ (fun token token' => related (token.kind, token.value)
        (token'.kind, token'.value)) chain.toList chain'.toList := by
  rw [items, items, List.forall₂_map_left_iff, List.forall₂_map_right_iff]

namespace Piece

variable {α : Type}

theorem ofToken_eq_of_sameMeaning (read : String → Option α) (table : SymbolTable)
    {item item' : Kind × String} (same : SameMeaning item item') :
    ofToken read table item.1 item.2 = ofToken read table item'.1 item'.2 := by
  obtain ⟨kind, text⟩ := item
  obtain ⟨kind', text'⟩ := item'
  obtain ⟨rfl, texts⟩ := same
  cases kind with
  | coefficient =>
    obtain rfl := texts (.inl rfl)
    rfl
  | name =>
    obtain rfl := texts (.inr rfl)
    rfl
  | startOfInput | endOfInput | plus | minus | times | relation | comma => rfl

theorem ofTokens_eq_of_sameMeaning (read : String → Option α) (table : SymbolTable)
    {items items' : List (Kind × String)} (same : List.Forall₂ SameMeaning items items') :
    ofTokens read table items = ofTokens read table items' := by
  induction same generalizing table with
  | nil => rfl
  | cons here _ ih =>
    rw [ofTokens_cons, ofTokens_cons, ofToken_eq_of_sameMeaning read table here, ih]

/-- Tokens whose names are interned already become the same pieces again. -/
theorem ofTokens_again (read : String → Option α) {table later : SymbolTable}
    {items : List (Kind × String)} (grown : (ofTokens read table items).2.Extends later) :
    ofTokens read later items = ((ofTokens read table items).1, later) := by
  have unchanged : (ofTokens read later items).2 = later := by
    apply table_of_known
    intro name member
    exact grown.subset (mem_ofTokens read member)
  have grown' : (ofTokens read later items).2.Extends later := by
    rw [unchanged]
    exact later.extends_refl
  exact Prod.ext ((ofTokens_eq_map read items grown').trans (ofTokens_eq_map read items grown).symm)
    unchanged

end Piece

theorem Chain.equations_eq_of_sameMeaning {α : Type} [OfNat α 0] [OfNat α 1] [Add α] [Sub α]
    [Mul α] [Neg α] [BEq α] (read : String → Option α) (table : SymbolTable) {chain chain' : Chain}
    (same : List.Forall₂ SameMeaning chain.items chain'.items) :
    chain.equations read table = chain'.equations read table := by
  rw [equations, equations, Piece.ofTokens_eq_of_sameMeaning read table same]

namespace Source

/-- A source that is parsed again, at any later time, has the same outcome and adds no names. -/
theorem parse_again {table later : SymbolTable} {source : String}
    (grown : (parse table source).2.Extends later) :
    parse later source = ((parse table source).1, later) := by
  unfold parse parseWith at grown ⊢
  cases read : chain source with
  | error diagnostic => rfl
  | ok result =>
    rw [read] at grown
    have again := @Piece.ofTokens_again _ Numeral.readFloat? table later result.items grown
    simp only [Chain.equations, again]

/-- Two sources are parsed to the same equations or are both refused: with one and the same table,
and also at any time after the first, with the table that there is then. -/
structure ParsesAlike (refusals : Diagnostic → Diagnostic → Prop) (source source' : String) :
    Prop where
  alone : ∀ table, Corresponds refusals Eq (parse table source).1 (parse table source').1 ∧
    (parse table source).2 = (parse table source').2
  inTurn : ∀ table later, (parse table source).2.Extends later →
    Corresponds refusals Eq (parse table source).1 (parse later source').1 ∧
      (parse later source').2 = later

variable {refusals : Diagnostic → Diagnostic → Prop} {source source' : String}

/-- Sources whose chains state the same are parsed alike. -/
theorem parsesAlike_of_equations (chains : Corresponds refusals
      (fun result result' => ∀ table,
        result.equations Numeral.readFloat? table = result'.equations Numeral.readFloat? table)
      (chain source) (chain source')) : ParsesAlike refusals source source' := by
  have alone (table : SymbolTable) :
      Corresponds refusals Eq (parse table source).1 (parse table source').1 ∧
        (parse table source).2 = (parse table source').2 := by
    unfold parse parseWith
    generalize chain source = outcome at chains ⊢
    generalize chain source' = outcome' at chains ⊢
    cases chains with
    | error same => exact ⟨.error same, rfl⟩
    | ok same =>
      simp only [same table]
      exact ⟨.ok rfl, trivial⟩
  refine ⟨alone, ?_⟩
  intro table later grown
  obtain ⟨both, tables⟩ := alone table
  rw [tables] at grown
  rw [parse_again grown]
  exact ⟨both, rfl⟩

/-- Sources whose chains mean the same are parsed alike. -/
theorem parsesAlike_of_chain (chains : Corresponds refusals
      (fun result result' => List.Forall₂ SameMeaning result.items result'.items)
      (chain source) (chain source')) : ParsesAlike refusals source source' :=
  parsesAlike_of_equations (chains.imp (fun _ _ same => same) fun _ _ same _ =>
    Chain.equations_eq_of_sameMeaning _ _ same)

/-- Two sources whose chains are checked alike are both refused or neither is. -/
theorem chain_corresponds_of_check {lexical : LexicalError → LexicalError → Prop}
    {grammar : CheckError → CheckError → Prop} {results : Chain → Chain → Prop}
    (read : Corresponds lexical
      (fun result result' =>
        Corresponds grammar Eq result.check result'.check ∧ results result result')
      (Chain.ofSource source) (Chain.ofSource source'))
    (onLexical : ∀ error error', lexical error error' →
      refusals (error.diagnostic source) (error'.diagnostic source'))
    (onGrammar : ∀ error error', grammar error error' →
      refusals (error.diagnostic source) (error'.diagnostic source')) :
    Corresponds refusals results (chain source) (chain source') := by
  unfold chain
  generalize Chain.ofSource source = outcome at read ⊢
  generalize Chain.ofSource source' = outcome' at read ⊢
  cases read with
  | error same => exact .error (onLexical _ _ same)
  | @ok result result' both =>
    obtain ⟨checked, same⟩ := both
    dsimp only
    generalize result.check = answer at checked ⊢
    generalize result'.check = answer' at checked ⊢
    cases checked with
    | error violation => exact .error (onGrammar _ _ violation)
    | ok _ => exact .ok same

/-- Where tokens of one kind stand one against the other in two chains, both are refused or neither
is. -/
theorem chain_corresponds {lexical : LexicalError → LexicalError → Prop}
    {related : Token → Token → Prop}
    (kinds : ∀ token token', related token token' → token.kind = token'.kind)
    (read : Corresponds lexical
      (fun result result' => List.Forall₂ related result.toList result'.toList)
      (Chain.ofSource source) (Chain.ofSource source'))
    (onLexical : ∀ error error', lexical error error' →
      refusals (error.diagnostic source) (error'.diagnostic source'))
    (onGrammar : ∀ error error', SameViolation related error error' →
      refusals (error.diagnostic source) (error'.diagnostic source')) :
    Corresponds refusals
      (fun result result' => List.Forall₂ related result.toList result'.toList)
      (chain source) (chain source') := by
  have integral := @Chain.integral_of_ofSource source
  have integral' := @Chain.integral_of_ofSource source'
  refine chain_corresponds_of_check ?_ onLexical onGrammar
  generalize Chain.ofSource source = outcome at read integral ⊢
  generalize Chain.ofSource source' = outcome' at read integral' ⊢
  cases read with
  | error same => exact .error same
  | ok same =>
    -- What was read is integral, so checking it is a walk over its tokens.
    exact .ok ⟨(integral rfl).check_corresponds kinds (integral' rfl) same, same⟩

end Source

end LinearSystem
