import LinearSystem.Proofs.Decimal.Reading
import LinearSystem.Proofs.Decimal.Threshold
import LinearSystem.Proofs.Equation.Parts
import LinearSystem.Proofs.Lexical.Scanner
/-!
Every numeral converts.

A numeral that a scanner has come to the end of can always be read as a number, and it is refused
only for its value: exactly if this is `2 ^ 1024 - 2 ^ 970` or more, which is rounded to infinity.
So the coefficients of a chain are finite numbers without sign, and none of them is passed over when
equations are built (`Scanner.completed_converts`).
-/
namespace LinearSystem

open Binary64 Literal

theorem Binary64.overflow_eq : overflow = 2 ^ 1024 - 2 ^ 970 := by
  rw [overflow, sub_one_mul, ← pow_add]

/-! ### Numerals -/

section

variable {whole fraction exponent : List Char} (parts : HasParts whole fraction exponent)

include parts

theorem Numeral.readFloat?_parts :
    readFloat? (.ofList (whole ++ fraction ++ exponent)) =
      some (assemble false (nearest (decimal whole fraction exponent))) := by
  rw [readFloat?, String.toList_ofList, ofText?_parts parts]
  rfl

/-- A numeral is finite if its exact value is not rounded to infinity. -/
theorem Literal.isFinite_iff_lt :
    isFinite (whole ++ fraction ++ exponent) = true ↔
      exactValue whole fraction exponent < 2 ^ 1024 - 2 ^ 970 := by
  rw [isFinite_parts parts, Decimal.nearest_lt_iff, ← exactValue_eq, overflow_eq]

theorem Numeral.isFinite_iff_lt :
    (assemble false (nearest (decimal whole fraction exponent))).isFinite = true ↔
      exactValue whole fraction exponent < 2 ^ 1024 - 2 ^ 970 := by
  rw [isFinite_assemble_iff (nearest_le _), ← Literal.isFinite_parts parts,
    Literal.isFinite_iff_lt parts]

end

/-- A numeral that is accepted is a finite number without a sign. -/
theorem Literal.IsLiteral.exists_readFloat? {text : String} (literal : IsLiteral text.toList) :
    ∃ x, Numeral.readFloat? text = some x ∧ x.isFinite = true ∧ isNegative x = false := by
  obtain ⟨⟨whole, fraction, exponent, same, parts⟩, finite⟩ := literal
  have said := Numeral.readFloat?_parts parts
  rw [← same, String.ofList_toList] at said
  rw [same, Literal.isFinite_iff_lt parts, ← Numeral.isFinite_iff_lt parts] at finite
  exact ⟨_, said, finite, isNegative_assemble (nearest_le _)⟩

/-! ### Chains -/

namespace Chain

variable {source : String} {chain : Chain}

theorem isLiteral_of_coefficient (read : ofSource source = .ok chain) {text : String}
    (member : (.coefficient, text) ∈ chain.items) : IsLiteral text.toList := by
  rcases spells_items read _ member with starts | ends | literal
  · cases starts
  · cases ends
  · exact literal

theorem coefficient?_of_ofSource (read : ofSource source = .ok chain) {token : Token}
    (member : token ∈ chain.toList) (isCoefficient : token.kind = .coefficient) :
    ∃ x, token.coefficient? = some x ∧ x.isFinite = true ∧ isNegative x = false := by
  have item : (token.kind, token.value) ∈ chain.items := List.mem_map_of_mem member
  rw [isCoefficient] at item
  rw [Token.coefficient?, if_pos isCoefficient]
  exact (isLiteral_of_coefficient read item).exists_readFloat?

/-- A builder is told a number for every coefficient. -/
theorem coefficient_notMem_pieces (read : ofSource source = .ok chain) (table : SymbolTable) :
    .coefficient none ∉ (Piece.ofTokens Numeral.readFloat? table chain.items).1 := by
  rw [Piece.ofTokens_eq_map Numeral.readFloat? chain.items (SymbolTable.extends_refl _)]
  intro member
  obtain ⟨⟨kind, text⟩, among, same⟩ := List.mem_map.mp member
  cases kind with
  | coefficient =>
    obtain ⟨x, said, -⟩ := (isLiteral_of_coefficient read among).exists_readFloat?
    have none : Numeral.readFloat? text = none := Piece.coefficient.inj same
    rw [said] at none
    cases none
  | startOfInput | endOfInput | plus | minus | times | relation | name | comma => cases same

end Chain

/-! ### Scanners -/

namespace Scanner

/-- The parts of a numeral have been read up to an offset, and what comes there may follow them. -/
def Completes (scanner : Scanner) (start : Nat) (first : Char) (stop : Nat) : Prop :=
  ∃ hasExponent, scanner.readParts start first = .ok (hasExponent, stop) ∧
    (scanner.peek? stop).filter
      (fun next => next == '.' || hasExponent && Text.startsName next) = none

section

variable {scanner : Scanner} {cursor : Cursor} {first : Char} {rest : List Char} {stop : Nat}
  (here : scanner.At cursor (first :: rest))
  (completes : scanner.Completes cursor.offset first stop)

include here completes

/-- What completes is a numeral at the place of the scanner, which is refused only for its value. -/
theorem Completes.exists_parts : ∃ whole fraction exponent, HasParts whole fraction exponent ∧
    let literal := whole ++ fraction ++ exponent
    Text.slice? scanner.source cursor.offset stop = some (.ofList literal) ∧
    scanner.readCoefficient cursor.offset first =
      if isFinite literal then .ok (.unlinked .coefficient literal cursor (cursor.past literal))
      else .error (.refused ⟨cursor, .outOfRange (.ofList literal)⟩) := by
  obtain ⟨hasExponent, scanned, free⟩ := completes
  rw [here.readParts] at scanned
  split at scanned
  next whole fraction exponent left taken =>
    cases scanned
    -- The offset that was reached is that of what has been taken off the text, and nothing dangles.
    have read := here.readCoefficient
    have text := takeParts_append taken
    rw [← text] at here
    rw [here.past.peek?, ← dangling?_eq_filter] at free
    obtain ⟨-, parts, -⟩ := takeParts_iff.mp ⟨taken, free⟩
    refine ⟨whole, fraction, exponent, parts, here.slice?, ?_⟩
    rw [read, take, taken]
    dsimp only
    rw [free]
    dsimp only
    split
    · rfl
    · simp [tokenOf, refusedAt, Except.map]
  · cases scanned

end

/-- A numeral that is read to its end converts, and is refused exactly if its value is too large. So
the coefficients of a chain are finite and not negative, and a builder passes over none of them. -/
theorem completed_converts (source : String) :
    (∀ (scanner : Scanner) (cursor : Cursor) (first : Char) (rest : List Char) (stop : Nat),
      scanner.source = source → scanner.At cursor (first :: rest) →
      scanner.Completes cursor.offset first stop →
      ∃ whole fraction exponent, HasParts whole fraction exponent ∧
        let literal := String.ofList (whole ++ fraction ++ exponent)
        let value := exactValue whole fraction exponent
        Text.slice? source cursor.offset stop = some literal ∧
        (∃ x, Numeral.readFloat? literal = some x ∧
          (x.isFinite = true ↔ value < 2 ^ 1024 - 2 ^ 970)) ∧
        (scanner.readCoefficient cursor.offset first =
            .error (.refused ⟨cursor, .outOfRange literal⟩) ↔ 2 ^ 1024 - 2 ^ 970 ≤ value) ∧
        (value < 2 ^ 1024 - 2 ^ 970 → ∃ token, token.kind = .coefficient ∧ token.value = literal ∧
          scanner.readCoefficient cursor.offset first = .ok token)) ∧
    ∀ chain, Chain.ofSource source = .ok chain →
      (∀ token ∈ chain.toList, token.kind = .coefficient →
        ∃ x, token.coefficient? = some x ∧ x.isFinite = true ∧ isNegative x = false) ∧
      ∀ table, .coefficient none ∉ (Piece.ofTokens Numeral.readFloat? table chain.items).1 := by
  constructor
  · rintro scanner cursor first rest stop rfl here completes
    obtain ⟨whole, fraction, exponent, parts, cut, read⟩ := completes.exists_parts here
    have finite := Literal.isFinite_iff_lt parts
    refine ⟨whole, fraction, exponent, parts, cut,
      ⟨_, Numeral.readFloat?_parts parts, Numeral.isFinite_iff_lt parts⟩, ?_, ?_⟩
    · rw [read, ← not_lt, ← finite]
      split
      next small => exact iff_of_false (by rintro ⟨⟩) (not_not.mpr small)
      next large => exact iff_of_true rfl large
    · intro small
      rw [← finite] at small
      rw [if_pos small] at read
      exact ⟨_, rfl, rfl, read⟩
  · intro chain read
    exact ⟨fun _ => Chain.coefficient?_of_ofSource read, Chain.coefficient_notMem_pieces read⟩

/-- In `1.5e3 = x` the numeral completes in front of a blank. -/
theorem completed_converts_scaled :
    let source := "1.5e3 = x"
    let scanner := ofSource source
    scanner.source = source ∧ scanner.At .start ('1' :: ".5e3 = x".toList) ∧
    scanner.Completes Cursor.start.offset '1' 5 ∧
    (∃ whole fraction exponent, HasParts whole fraction exponent ∧
      let literal := String.ofList (whole ++ fraction ++ exponent)
      let value := exactValue whole fraction exponent
      Text.slice? source Cursor.start.offset 5 = some literal ∧
      (∃ x, Numeral.readFloat? literal = some x ∧
        (x.isFinite = true ↔ value < 2 ^ 1024 - 2 ^ 970)) ∧
      (scanner.readCoefficient Cursor.start.offset '1' =
          .error (.refused ⟨.start, .outOfRange literal⟩) ↔ 2 ^ 1024 - 2 ^ 970 ≤ value) ∧
      (value < 2 ^ 1024 - 2 ^ 970 → ∃ token, token.kind = .coefficient ∧ token.value = literal ∧
        scanner.readCoefficient Cursor.start.offset '1' = .ok token)) ∧
    ∃ chain, Chain.ofSource source = .ok chain ∧
      (∀ token ∈ chain.toList, token.kind = .coefficient →
        ∃ x, token.coefficient? = some x ∧ x.isFinite = true ∧ isNegative x = false) ∧
      ∀ table, .coefficient none ∉ (Piece.ofTokens Numeral.readFloat? table chain.items).1 := by
  intro source scanner
  have text : source.toList = [] ++ [] ++ '1' :: ".5e3 = x".toList := by decide +kernel
  have here : scanner.At .start ('1' :: ".5e3 = x".toList) := ⟨[], [], text, rfl, rfl⟩
  have completes : scanner.Completes Cursor.start.offset '1' 5 :=
    ⟨true, by rw [here.readParts]; rfl, by decide +kernel⟩
  obtain ⟨chain, read⟩ : ∃ chain, Chain.ofSource source = .ok chain := by
    rw [Chain.ofSource_eq]
    have all : (Token.readAll .start source.toList).2 = none := by decide +kernel
    split
    next tokens _ => exact ⟨_, rfl⟩
    next ended =>
      rw [ended] at all
      cases all
  obtain ⟨converts, chains⟩ := completed_converts source
  exact ⟨rfl, here, completes, converts scanner .start '1' _ 5 rfl here completes, chain, read,
    chains chain read⟩

end Scanner

end LinearSystem
