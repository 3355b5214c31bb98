import LinearSystem.Proofs.Chain.Products
import LinearSystem.Proofs.Lexical.Products
import LinearSystem.Proofs.Lexical.Rendering
/-!
Explicit products mean nothing.

A term multiplies its factors whether or not a star stands between them: to a builder that is past
the start of the source an explicit product is no step at all (`Builder.step_times`). So where all
stars stand between factors, a source and the same source with spaces for the stars are parsed alike
(`Source.parse_blankStars`).
-/
namespace LinearSystem

open Grammar Text

variable {α : Type}

/-- Refusals by the rules, with one message and at one place. -/
structure Diagnostic.SameFault (refusal refusal' : Diagnostic) : Prop
    extends Diagnostic.SameRule refusal refusal' where
  location : refusal.location = refusal'.location

/-! ### Pieces -/

namespace Piece

theorem eq_times {piece : Piece α} (isTimes : piece.kind = .times) : piece = .times := by
  cases piece with
  | times => rfl
  | startOfInput | endOfInput | plus | minus | relation | coefficient | name | comma =>
    cases isTimes

/-- A product has no name, so the other tokens become the same pieces without it. -/
theorem ofTokens_filter (read : String → Option α) (table : SymbolTable)
    (items : List (Kind × String)) :
    ofTokens read table (items.filter (·.1 ≠ .times)) =
      ((ofTokens read table items).1.filter (·.kind ≠ .times), (ofTokens read table items).2) := by
  induction items generalizing table with
  | nil => rfl
  | cons item rest ih =>
    obtain ⟨kind, text⟩ := item
    have same := kind_ofToken read table kind text
    by_cases isTimes : kind = .times
    · subst isTimes
      rw [List.filter_cons_of_neg (by simp), ofTokens_cons,
        List.filter_cons_of_neg (by simp [same])]
      exact ih table
    · rw [List.filter_cons_of_pos (by simp [isTimes]), ofTokens_cons, ofTokens_cons,
        List.filter_cons_of_pos (by simp [same, isTimes]), ih]

end Piece

namespace Builder

variable [OfNat α 0] [OfNat α 1] [Add α] [Sub α] [Mul α] [Neg α] [BEq α]

theorem step_times {builder : Builder α} (begun : builder.atStart = false) :
    builder.step .times = (builder, .more) := by
  simp [step, ← begun]

/-- Where products stand between factors only, the other pieces state the same equations. -/
theorem equations_filter {builder : Builder α} {previous : Kind} {pieces : List (Piece α)}
    (chained : (previous :: pieces.map Piece.kind).IsChain Kind.Adjoins)
    (begun : previous.IsFactor → builder.atStart = false) :
    builder.equations (pieces.filter (·.kind ≠ .times)) = builder.equations pieces := by
  -- Before a product there is a factor, so the builder is past the start and stays as it is.
  induction pieces generalizing builder previous with
  | nil => rfl
  | cons piece rest ih =>
    by_cases isTimes : piece.kind = .times
    · rw [List.map_cons, isTimes] at chained
      obtain ⟨before, -, others⟩ := Kind.isChain_of_times chained
      rw [List.filter_cons_of_neg (by simp [isTimes]), ih others begun, Piece.eq_times isTimes,
        equations, step_times (begun before)]
    · -- Whatever this piece is, before a product it was a factor and no start of the source.
      have later : (builder.step piece).1.equations (rest.filter (·.kind ≠ .times)) =
          (builder.step piece).1.equations rest := by
        apply ih chained.tail
        intro factor
        apply atStart_step
        intro starts
        rw [starts] at factor
        exact absurd factor (by decide)
      rw [List.filter_cons_of_pos (by simp [isTimes]), equations, equations]
      generalize builder.step piece = taken at later ⊢
      obtain ⟨next, reply⟩ := taken
      cases reply with
      | more => exact later
      | answer equation =>
        cases equation with
        | none => rfl
        | some equation => exact congrArg (List.cons equation) later

end Builder

/-! ### Sources -/

/-- A chain in which products stand between factors states what its other tokens state. -/
theorem Chain.Integral.equations_filter [OfNat α 0] [OfNat α 1] [Add α] [Sub α] [Mul α] [Neg α]
    [BEq α] {chain others : Chain} (integral : chain.Integral) (products : chain.MultipliesFactors)
    (items : others.items = chain.items.filter (·.1 ≠ .times)) (read : String → Option α)
    (table : SymbolTable) : chain.equations read table = others.equations read table := by
  obtain ⟨first, between, last, listed, starts, -⟩ := integral.exists_between
  have chained := integral.isChain_adjoins products
  rw [← map_kind_ofTokens_itemsOf read table] at chained
  -- One more start of the source in front makes no difference to what adjoins what.
  have started : (Kind.startOfInput ::
      (Piece.ofTokens read table chain.items).1.map Piece.kind).IsChain Kind.Adjoins := by
    refine List.isChain_cons.mpr ⟨?_, chained⟩
    intro kind member
    rw [Chain.items, listed, Piece.map_kind_ofTokens] at member
    obtain rfl : Kind.startOfInput = kind := by simpa [starts] using member
    simp [Kind.Adjoins]
  have same := (Builder.fresh true).equations_filter started fun factor => absurd factor (by decide)
  simp only [equations, items, Piece.ofTokens_filter, same]

theorem Chain.items_filter {chain others : Chain}
    (contents : others.toList.map Token.content =
      (chain.toList.filter (·.kind ≠ .times)).map Token.content) :
    others.items = chain.items.filter (·.1 ≠ .times) := by
  have same := congrArg (List.map fun token => (token.kind, token.value)) contents
  rw [List.map_map, List.map_map] at same
  rw [items, items, List.filter_map]
  exact same

namespace Source

/-- Explicit and implicit products are the same. A source that can be read, and in which each star
has a number or a name directly before it and one directly after it, is parsed to the same equations
as the source with a space for every star, or both are refused by the rules, with one message and at
one place. -/
theorem parse_blankStars {source : String} {chain : Chain}
    (read : Chain.ofSource source = .ok chain) (products : chain.MultipliesFactors) :
    ParsesAlike Diagnostic.SameFault source (String.ofList (blankStars source.toList)) := by
  obtain ⟨others, read', contents⟩ := Chain.ofSource_blankStars read
  have integral := Chain.integral_of_ofSource read
  have integral' := Chain.integral_of_ofSource read'
  -- The rules may blame any of the tokens, and the builder reads their kinds and texts.
  have tokens := contents.symm
  rw [← List.forall₂_eq_eq_eq, List.forall₂_map_left_iff, List.forall₂_map_right_iff] at tokens
  have checked := integral.check_corresponds_filter
    (fun _ _ same => (Token.eq_of_content same).1) integral' products tokens
  have equations := integral.equations_filter products (Chain.items_filter contents)
    Numeral.readFloat?
  have both : Corresponds (fun _ _ => False)
      (fun chain others => Corresponds (SameViolation fun token token' =>
          token.content = token'.content) Eq chain.check others.check ∧
        ∀ table, chain.equations Numeral.readFloat? table =
          others.equations Numeral.readFloat? table)
      (Chain.ofSource source) (Chain.ofSource (String.ofList (blankStars source.toList))) := by
    rw [read, read']
    exact .ok ⟨checked, equations⟩
  apply parsesAlike_of_equations
  apply chain_corresponds_of_check both (fun _ _ => False.elim)
  rintro _ _ ⟨violation, same⟩
  exact ⟨⟨rfl, rfl, rfl⟩, (Token.eq_of_content same).2.2⟩

/-- Without the stars of `2*e5 + x*3 <= 2*.5` no numeral goes on into the next factor. -/
theorem parse_blankStars_numerals :
    (∃ chain, Chain.ofSource "2*e5 + x*3 <= 2*.5" = .ok chain ∧ chain.MultipliesFactors) ∧
    ParsesAlike Diagnostic.SameFault "2*e5 + x*3 <= 2*.5" "2 e5 + x 3 <= 2 .5" := by
  have evaluated : (Chain.ofSource "2*e5 + x*3 <= 2*.5").map
      (fun chain => decide chain.MultipliesFactors) = .ok true := by decide +kernel
  obtain ⟨chain, read, products⟩ := Chain.exists_ok_of_map evaluated
  have products := of_decide_eq_true products
  exact ⟨⟨chain, read, products⟩, parse_blankStars read products⟩

end Source

end LinearSystem
