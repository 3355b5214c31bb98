import LinearSystem.Equation.Json
import LinearSystem.Equation.Printer
import LinearSystem.Proofs.Binary64.Overflow
import LinearSystem.Proofs.Decimal.Positional
import LinearSystem.Proofs.Equation.Numerals
import LinearSystem.Proofs.Equation.Sums
/-!
When the numbers of an equation are finite.

Every numeral of a source is, but products and sums of them may overflow, and then a coefficient or
a bound is infinite or no number at all (`Source.product_overflows`). The numbers of an equation are
finite exactly if none of the operations that lead to them overflows
(`Source.isFinite_iff_neverOverflows`).
-/
namespace LinearSystem

open Binary64 Items

/-- All numbers of an equation are finite. -/
structure Equation.IsFinite (equation : Equation Float) : Prop where
  terms : ∀ term ∈ equation.form.terms, term.2.isFinite = true
  bound : equation.bound.isFinite = true

/-- No operation that a part is summed up by overflows: no product of a term, no sum of a variable
and no difference on the way to the bound. -/
structure Items.NeverOverflows (part : Items) : Prop where
  products : ∀ term ∈ part.left.signedTerms ++ part.right.signedTerms,
    StaysBelow (· * ·) (· * ·) (unit (term.1.getD false)) (numbers Numeral.readFloat? term.2)
  sums : ∀ name, StaysBelow (· + ·) (· + ·) 0
    (amounts (some name) (part.contributions Numeral.readFloat?))
  bound : StaysBelow (· - ·) (· - ·) 0 (amounts none (part.contributions Numeral.readFloat?))

/-- All numerals of a part are finite. -/
def Items.HasFiniteNumerals (part : Items) : Prop :=
  ∀ text, (.coefficient, text) ∈ part → ∀ x, Numeral.readFloat? text = some x → x.isFinite = true

namespace Items

/-! ### Terms -/

theorem isFinite_unit (negative : Bool) : (unit negative : Float).isFinite = true := by
  cases negative <;> rfl

/-- A term is worth a finite number exactly if none of its products overflows. -/
theorem isFinite_worth_iff {term : Option Bool × Items} (finite : HasFiniteNumerals term.2) :
    (worth Numeral.readFloat? term).isFinite = true ↔
      StaysBelow (· * ·) (· * ·) (unit (term.1.getD false))
        (numbers Numeral.readFloat? term.2) := by
  have numerals : ∀ x ∈ numbers Numeral.readFloat? term.2, x.isFinite = true := by
    intro x member
    obtain ⟨item, among, said⟩ := List.mem_filterMap.mp member
    by_cases isNumeral : item.1 = .coefficient
    · rw [if_pos isNumeral] at said
      exact finite item.2 (isNumeral ▸ among) x said
    · rw [if_neg isNumeral] at said
      cases said
  rw [worth, isFinite_foldl isFinite_mul]
  exact ⟨fun all => all.2.2, fun below => ⟨isFinite_unit _, numerals, below⟩⟩

theorem isFinite_of_beq_zero {x : Float} (zero : (x == 0) = true) : x.isFinite = true := by
  rw [beq_zero_eq] at zero
  rw [isFinite_unpacked]
  cases parts : unpacked x with
  | infinity sign =>
    rw [parts] at zero
    cases sign <;> cases zero
  | notANumber =>
    rw [parts] at zero
    cases zero
  | zero | finite => rfl

/-- A term is worth a finite number exactly if it adds no other. -/
theorem isFinite_contribution_iff (right : Bool) (term : Option Bool × Items) :
    (worth Numeral.readFloat? term).isFinite = true ↔
      ∀ entry, contribution? Numeral.readFloat? right term = some entry →
        entry.2.isFinite = true := by
  rw [contribution?]
  split
  next nothing =>
    have one : worth Numeral.readFloat? term = unit (term.1.getD false) := by
      rw [worth, nothing.2.1, List.foldl_nil]
    simp [one, isFinite_unit]
  · split
    next zero => simp [isFinite_of_beq_zero zero]
    · cases right <;> simp [isFinite_neg_iff]

/-! ### Parts -/

section

variable {part : Items} (finite : HasFiniteNumerals part)

include finite

theorem products_of_side_iff {side : Items} (within : side ⊆ part) (right : Bool) :
    (∀ term ∈ side.signedTerms, StaysBelow (· * ·) (· * ·) (unit (term.1.getD false))
        (numbers Numeral.readFloat? term.2)) ↔
      ∀ entry ∈ side.signedTerms.filterMap (contribution? Numeral.readFloat? right),
        entry.2.isFinite = true := by
  have each : ∀ term ∈ side.signedTerms, StaysBelow (· * ·) (· * ·) (unit (term.1.getD false))
      (numbers Numeral.readFloat? term.2) ↔
        ∀ entry, contribution? Numeral.readFloat? right term = some entry →
          entry.2.isFinite = true := by
    intro term isTerm
    rw [← isFinite_contribution_iff right, isFinite_worth_iff]
    intro text member
    exact finite text (within (subset_of_mem_signedTerms isTerm member))
  simp only [List.mem_filterMap, forall_exists_index, and_imp]
  constructor
  · intro below entry term isTerm adds
    exact (each term isTerm).mp (below term isTerm) entry adds
  · intro all term isTerm
    exact (each term isTerm).mpr fun entry adds => all entry term isTerm adds

/-- No product of a part overflows exactly if everything that it adds is finite. -/
theorem products_iff :
    (∀ term ∈ part.left.signedTerms ++ part.right.signedTerms, StaysBelow (· * ·) (· * ·)
        (unit (term.1.getD false)) (numbers Numeral.readFloat? term.2)) ↔
      ∀ entry ∈ part.contributions Numeral.readFloat?, entry.2.isFinite = true := by
  rw [List.forall_mem_append, contributions, List.forall_mem_append,
    products_of_side_iff finite (left_subset part) false,
    products_of_side_iff finite (right_subset part) true]

end

theorem forall_amounts {κ α : Type} [DecidableEq κ] (holds : α → Prop)
    {entries : List (Option κ × α)} :
    (∀ entry ∈ entries, holds entry.2) ↔ ∀ key, ∀ amount ∈ amounts key entries, holds amount := by
  constructor
  · intro all key amount member
    obtain ⟨entry, among, found⟩ := List.mem_filterMap.mp member
    by_cases same : entry.1 = key
    · rw [if_pos same] at found
      exact Option.some.inj found ▸ all entry among
    · rw [if_neg same] at found
      cases found
  · intro all entry among
    exact all entry.1 entry.2 (List.mem_filterMap.mpr ⟨entry, among, if_pos rfl⟩)

end Items

/-- The terms of an equation are finite exactly if the sums of all names are: a name without amounts
has no term, but its empty sum is finite. -/
theorem Equation.SumsUp.terms_finite_iff {part : Items} {table : SymbolTable}
    {equation : Equation Float} (sums : equation.SumsUp Numeral.readFloat? part table) :
    (∀ term ∈ equation.form.terms, term.2.isFinite = true) ↔
      ∀ name, ((amounts (some name) (part.contributions Numeral.readFloat?)).foldl
        (· + ·) 0).isFinite = true := by
  constructor
  · intro all name
    by_cases nothing : amounts (some name) (part.contributions Numeral.readFloat?) = []
    · rw [nothing]
      rfl
    · obtain ⟨term, member, same⟩ :=
        List.mem_map.mp ((sums.terms name _).mpr ⟨nothing, rfl⟩)
      exact (Prod.mk.inj same).2 ▸ all term member
  · intro all term member
    have named := (sums.terms _ term.2).mp (List.mem_map_of_mem member)
    exact named.2 ▸ all _

/-- An equation that sums up a part with finite numerals is finite exactly if nothing overflows on
the way. -/
theorem Equation.SumsUp.isFinite_iff {part : Items} {table : SymbolTable}
    {equation : Equation Float} (sums : equation.SumsUp Numeral.readFloat? part table)
    (finite : HasFiniteNumerals part) : equation.IsFinite ↔ part.NeverOverflows := by
  let entries := part.contributions Numeral.readFloat?
  have zero : (0 : Float).isFinite = true := rfl
  have total (name : String) : ((amounts (some name) entries).foldl (· + ·) 0).isFinite = true ↔
      (∀ amount ∈ amounts (some name) entries, amount.isFinite = true) ∧
        StaysBelow (· + ·) (· + ·) 0 (amounts (some name) entries) := by
    simpa [zero] using isFinite_foldl isFinite_add (amounts (some name) entries) 0
  have bound : equation.bound.isFinite = true ↔
      (∀ amount ∈ amounts none entries, amount.isFinite = true) ∧
        StaysBelow (· - ·) (· - ·) 0 (amounts none entries) := by
    rw [sums.bound]
    simpa [zero] using isFinite_foldl isFinite_sub (amounts none entries) 0
  have terms := sums.terms_finite_iff
  constructor
  · rintro ⟨termsFinite, boundFinite⟩
    have each (name : String) := (total name).mp (terms.mp termsFinite name)
    have all : ∀ entry ∈ entries, entry.2.isFinite = true := by
      apply (forall_amounts fun amount : Float => amount.isFinite = true).mpr
      rintro (_ | name)
      · exact (bound.mp boundFinite).1
      · exact (each name).1
    exact ⟨(products_iff finite).mpr all, fun name => (each name).2, (bound.mp boundFinite).2⟩
  · rintro ⟨products, below, boundBelow⟩
    have all := (forall_amounts fun amount : Float => amount.isFinite = true).mp
      ((products_iff finite).mp products)
    exact ⟨terms.mpr fun name => (total name).mpr ⟨all (some name), below name⟩,
      bound.mpr ⟨all none, boundBelow⟩⟩

/-! ### Written numbers -/

/-- Every form of a decimal has a digit in it. -/
theorem NumeralStyle.exists_digit (style : NumeralStyle) (negative : Bool) (magnitude : Decimal) :
    ∃ c ∈ (style.writeNumeral (.finite negative magnitude)).toList, c.isDigit = true := by
  obtain ⟨nonempty, isDigits⟩ := Decimal.isDigits_toDigits magnitude.mantissa
  obtain ⟨digit, rest, digits⟩ := List.exists_cons_of_ne_nil nonempty
  have isDigit : digit.isDigit = true := isDigits digit (by simp [digits])
  have unsigned : digit ∈ (if style.isPositional magnitude.leadingExponent then
      magnitude.positional style.wholeMark else magnitude.withExponent).toList := by
    split
    · unfold Decimal.positional
      split
      · simp [digits]
      · -- The point is put between the digits.
        have among : digit ∈ List.leftpad ((-magnitude.exponent).toNat + 1) '0'
            (Nat.toDigits 10 magnitude.mantissa) := by
          simp [List.leftpad, digits]
        rw [← List.take_append_drop (_ - (-magnitude.exponent).toNat) (List.leftpad _ _ _),
          List.mem_append] at among
        simp only [Decimal.pointed, String.toList_ofList, List.mem_append, List.mem_cons]
        exact among.imp_right .inr
    · simp [Decimal.withExponent, digits]
  refine ⟨digit, ?_, isDigit⟩
  rw [writeNumeral]
  cases negative with
  | false => exact unsigned
  | true =>
    simp only [if_true, String.toList_append, List.mem_append]
    exact .inr unsigned

/-- A number is written `null` exactly if it is not finite. -/
theorem NumeralStyle.write_json_eq_null_iff {x : Float} :
    json.write x = "null" ↔ ¬x.isFinite = true := by
  rw [isFinite_iff, write, Numeral.ofFloat]
  by_cases finite : magnitudeBits x < infinityBits
  · obtain ⟨digit, member, isDigit⟩ :=
      json.exists_digit (isNegative x) (Decimal.shortest json.tie (magnitudeBits x))
    have written : json.writeNumeral (.finite (isNegative x)
        (Decimal.shortest json.tie (magnitudeBits x))) ≠ "null" := by
      have noDigit : ∀ c ∈ "null".toList, c.isDigit = false := by simp
      intro null
      rw [null] at member
      rw [noDigit digit member] at isDigit
      cases isDigit
    simp [finite, written]
  · simp only [finite, if_false, not_false_eq_true, iff_true]
    split
    · cases isNegative x <;> rfl
    · rfl

theorem Equation.isFinite_iff_written (equation : Equation Float) (table : SymbolTable) :
    equation.IsFinite ↔ NumeralStyle.json.write equation.bound ≠ "null" ∧
      ∀ term ∈ equation.terms table, NumeralStyle.json.write term.2 ≠ "null" := by
  have sorted := Text.sortByName_perm (equation.namedTerms table)
  simp only [ne_eq, NumeralStyle.write_json_eq_null_iff, not_not, terms, sorted.mem_iff]
  constructor
  · rintro ⟨terms, bound⟩
    refine ⟨bound, ?_⟩
    intro term member
    obtain ⟨own, among, rfl⟩ := List.mem_map.mp member
    exact terms own among
  · rintro ⟨bound, terms⟩
    refine ⟨fun term member => ?_, bound⟩
    exact terms (table.nameOf term.1, term.2) (List.mem_map.mpr ⟨term, member, rfl⟩)

namespace Source

theorem isFinite_of_literal {text : String} (literal : Literal.IsLiteral text.toList) {x : Float}
    (said : Numeral.readFloat? text = some x) : x.isFinite = true := by
  obtain ⟨number, same, finite, -⟩ := literal.exists_readFloat?
  cases said.symm.trans same
  exact finite

/-- Of a source that is parsed, the numbers of an equation are finite exactly if nothing overflows
while its part is summed up. Such an equation has no `null` in its JSON text, and any other has. -/
theorem isFinite_iff_neverOverflows {table after : SymbolTable} {source : String}
    {equations : List (Equation Float)} (parsed : parse table source = (.ok equations, after)) :
    List.Forall₂ (fun part equation => (equation.IsFinite ↔ part.NeverOverflows) ∧
        (equation.IsFinite ↔ NumeralStyle.json.write equation.bound ≠ "null" ∧
          ∀ term ∈ equation.terms after, NumeralStyle.json.write term.2 ≠ "null"))
      (relations source) equations := by
  obtain ⟨result, lexed, built⟩ := parseWith_eq_ok.mp parsed
  obtain ⟨read, accepted⟩ := chain_eq_ok.mp lexed
  have parts : relations source = Items.relations result.items.tail.dropLast := by
    simp only [relations, lexed]
  have made : (result.equations Numeral.readFloat? table).1 = equations := congrArg Prod.fst built
  rw [parts, ← made]
  apply Chain.forall₂_of_sumsUp Numeral.readFloat? table accepted
  intro part among equation sums
  refine ⟨sums.isFinite_iff ?_, equation.isFinite_iff_written after⟩
  intro text member x said
  -- What is read as a number is finite.
  rcases Chain.spells_items read _ (Chain.mem_items_of_relations among member) with
    starts | ends | literal
  · cases starts
  · cases ends
  · exact isFinite_of_literal literal said

/-- In `2x = 4` nothing overflows. -/
theorem isFinite_twoX : ∃ equations after, parse .empty "2x = 4" = (.ok equations, after) ∧
    List.Forall₂ (fun part equation => (equation.IsFinite ↔ part.NeverOverflows) ∧
        (equation.IsFinite ↔ NumeralStyle.json.write equation.bound ≠ "null" ∧
          ∀ term ∈ equation.terms after, NumeralStyle.json.write term.2 ≠ "null"))
      (relations "2x = 4") equations := by
  obtain ⟨result, lexed⟩ : ∃ result, chain "2x = 4" = .ok result := ⟨_, chain_twoX⟩
  have parsed : parse .empty "2x = 4" = (.ok (result.equations Numeral.readFloat? .empty).1,
      (result.equations Numeral.readFloat? .empty).2) :=
    parseWith_eq_ok.mpr ⟨result, lexed, Prod.mk.eta.symm⟩
  exact ⟨_, _, parsed, isFinite_iff_neverOverflows parsed⟩

/-- Each numeral of `1e200 * 1e200 x <= 1` is finite, and their product is not. -/
theorem product_overflows : ∃ equations after,
    parse .empty "1e200 * 1e200 x <= 1" = (.ok equations, after) ∧
      (∃ equation ∈ equations, ∃ term ∈ equation.terms after, term.2.isFinite = false) ∧
      equations.map (fun equation => equation.render after) = ["inf x <= 1"] := by
  have shown : (parse .empty "1e200 * 1e200 x <= 1").1.toOption.map (fun equations =>
        (equations.any fun equation =>
            (equation.terms (parse .empty "1e200 * 1e200 x <= 1").2).any fun term =>
              !term.2.isFinite,
          equations.map fun equation =>
            equation.render (parse .empty "1e200 * 1e200 x <= 1").2)) =
      some (true, ["inf x <= 1"]) := by decide +kernel
  generalize parse .empty "1e200 * 1e200 x <= 1" = read at shown ⊢
  obtain ⟨result, after⟩ := read
  cases result with
  | error diagnostic => cases shown
  | ok equations =>
    obtain ⟨overflows, rendered⟩ := Prod.mk.inj (Option.some.inj shown)
    obtain ⟨equation, among, infinite⟩ := List.any_eq_true.mp overflows
    obtain ⟨term, member, infinite⟩ := List.any_eq_true.mp infinite
    refine ⟨equations, after, rfl, ⟨equation, among, term, member, ?_⟩, rendered⟩
    simpa using infinite

end Source

end LinearSystem
