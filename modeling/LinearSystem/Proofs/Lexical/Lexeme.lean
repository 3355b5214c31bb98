import LinearSystem.Proofs.Lexical.Literal
import LinearSystem.Token.Lexeme
/-!
The grammar of lexemes, and that reading a lexeme is recognizing it.

`Spells` says of each kind what its texts are. Some texts are the beginning of longer ones, so a
lexeme cannot have just anything directly after it (`runsInto`). A lexeme is read exactly if one
stands in front and does not run into what follows (`read_eq_ok`).
-/
namespace LinearSystem.Lexeme

open Text

/-- The texts of each kind; the ends of the source have none. -/
def Spells : Kind → List Char → Prop
  | .startOfInput, _ | .endOfInput, _ => False
  | .plus, text => text = ['+']
  | .minus, text => text = ['-']
  | .times, text => text = ['*']
  | .comma, text => text = [',']
  | .relation .equal, text => text = ['='] ∨ text = ['=', '=']
  | .relation .atMost, text => text = ['<', '='] ∨ text = ['≤']
  | .relation .atLeast, text => text = ['>', '='] ∨ text = ['≥']
  | .coefficient, text => Literal.IsLiteral text
  | .name, text =>
    ∃ first rest, text = first :: rest ∧ startsName first = true ∧
      ∀ c ∈ rest, continuesName c = true

/-- A lexeme whose text is one of its kind. -/
def IsSpelled (lexeme : Lexeme) : Prop := Spells lexeme.kind lexeme.text

/-- The characters that a lexeme would run into if they stood directly after it. -/
def runsInto (lexeme : Lexeme) (next : Char) : Bool :=
  match lexeme.kind with
  | .coefficient => Literal.runsInto (Literal.hasExponent lexeme.text) next
  | .name => continuesName next
  | .relation .equal => lexeme.text = ['='] && next == '='
  | _ => false

/-! ### First characters -/

/-- A character that starts no operator of two characters. -/
def IsPlain (c : Char) : Prop := c ≠ '=' ∧ c ≠ '<' ∧ c ≠ '>'

/-- Letters stand after the digits. -/
theorem val_of_isAlpha {c : Char} (letter : c.isAlpha = true) :
    65 ≤ c.val.toNat ∧ c.val.toNat ≤ 122 := by
  change (decide (c.val ≥ 65 ∧ c.val ≤ 90) || (decide (c.val ≥ 97) && decide (c.val ≤ 122))) = true
    at letter
  simp only [Bool.or_eq_true, Bool.and_eq_true, decide_eq_true_eq, ge_iff_le,
    UInt32.le_iff_toNat_le, UInt32.reduceToNat] at letter
  omega

theorem val_of_isDigit {c : Char} (digit : c.isDigit = true) :
    48 ≤ c.val.toNat ∧ c.val.toNat ≤ 57 := by
  change (decide (c.val ≥ 48) && decide (c.val ≤ 57)) = true at digit
  simp only [Bool.and_eq_true, decide_eq_true_eq, ge_iff_le, UInt32.le_iff_toNat_le,
    UInt32.reduceToNat] at digit
  omega

theorem startsNumeral_of_startsName {c : Char} (name : startsName c = true) :
    startsNumeral c = false := by
  by_contra numeral
  simp only [startsNumeral, Bool.not_eq_false, Bool.or_eq_true, beq_iff_eq] at numeral
  simp only [startsName, Bool.or_eq_true, beq_iff_eq] at name
  rcases numeral with digit | rfl
  · rcases name with letter | rfl
    · have above := (val_of_isAlpha letter).1
      have below := (val_of_isDigit digit).2
      omega
    · cases digit
  · revert name
    decide

theorem plain_of_startsNumeral {c : Char} (numeral : startsNumeral c = true) :
    IsPlain c ∧ symbol? c = none := by
  refine ⟨⟨?_, ?_, ?_⟩, ?_⟩
  · rintro rfl; cases numeral
  · rintro rfl; cases numeral
  · rintro rfl; cases numeral
  · unfold symbol?
    split <;> first | rfl | cases numeral

theorem plain_of_startsName {c : Char} (name : startsName c = true) :
    IsPlain c ∧ symbol? c = none := by
  refine ⟨⟨?_, ?_, ?_⟩, ?_⟩
  · rintro rfl; cases name
  · rintro rfl; cases name
  · rintro rfl; cases name
  · unfold symbol?
    split <;> first | rfl | cases name

theorem read_of_plain {first : Char} (plain : IsPlain first) (rest : List Char) :
    read first rest =
      match symbol? first with
      | some kind => .ok (⟨kind, [first]⟩, rest)
      | none =>
        if startsNumeral first then
          (Literal.take (first :: rest)).map fun (text, rest) => (⟨.coefficient, text⟩, rest)
        else if startsName first then
          .ok (⟨.name, first :: rest.takeWhile continuesName⟩, rest.dropWhile continuesName)
        else .error ⟨0, .invalidCharacter first⟩ := by
  obtain ⟨noEqual, noLess, noGreater⟩ := plain
  unfold read
  split <;> first | rfl | contradiction

/-- An operator of two characters is read only where the second follows. -/
theorem read_single {text : List Char} (single : text.head? ≠ some '=') :
    read '=' text = .ok (⟨.relation .equal, ['=']⟩, text) ∧
      read '<' text = .error ⟨0, .lessThan⟩ ∧ read '>' text = .error ⟨0, .greaterThan⟩ := by
  cases text with
  | nil => exact ⟨rfl, rfl, rfl⟩
  | cons next rest =>
    have other : next ≠ '=' := by simpa using single
    simp [read, other, symbol?]

/-! ### Reading -/

theorem spells_of_symbol {c : Char} {kind : Kind} (known : symbol? c = some kind) :
    Spells kind [c] := by
  unfold symbol? at known
  split at known <;> cases known <;> simp [Spells]

/-- Of the operators of one character only an equals sign runs into something, a second one. -/
theorem halts_of_symbol {c : Char} {kind : Kind} {rest : List Char}
    (known : symbol? c = some kind) (single : c = '=' → rest.head? ≠ some '=') :
    Halts (runsInto ⟨kind, [c]⟩) rest := by
  by_cases equals : c = '='
  · subst equals
    obtain rfl : Kind.relation .equal = kind := Option.some.inj known
    cases rest with
    | nil => rfl
    | cons next rest =>
      have noEqual : next ≠ '=' := by simpa using single rfl
      simpa [runsInto] using noEqual
  · apply halts_of_never
    intro next
    unfold symbol? at known
    split at known <;> cases known <;> first | rfl | contradiction

theorem read_sound {first : Char} {rest after : List Char} {lexeme : Lexeme}
    (success : read first rest = .ok (lexeme, after)) :
    lexeme.IsSpelled ∧ Halts lexeme.runsInto after := by
  unfold read at success
  split at success
  · cases success
    exact ⟨.inr rfl, halts_of_never (fun _ => rfl) after⟩
  · cases success
    exact ⟨.inl rfl, halts_of_never (fun _ => rfl) after⟩
  · cases success
    exact ⟨.inl rfl, halts_of_never (fun _ => rfl) after⟩
  · cases success
  · cases success
  next _ _ _ _ noDouble _ _ =>
    split at success
    next kind known =>
      cases success
      refine ⟨spells_of_symbol known, halts_of_symbol known ?_⟩
      -- Two equals signs would have been read as one operator.
      intro equals double
      obtain ⟨others, rfl⟩ := List.head?_eq_some_iff.mp double
      exact noDouble others equals rfl
    · split at success
      · cases taken : Literal.take (first :: rest) with
        | error refusal =>
          rw [taken] at success
          cases success
        | ok part =>
          rw [taken] at success
          cases success
          obtain ⟨-, isLiteral, halts⟩ := Literal.take_eq_ok.mp taken
          exact ⟨isLiteral, halts⟩
      · split at success
        next name =>
          cases success
          obtain ⟨-, inside, halts⟩ := span_iff.mp
            ⟨rfl, (rfl : rest.dropWhile continuesName = _)⟩
          exact ⟨⟨first, _, rfl, name, inside⟩, halts⟩
        · cases success

theorem read_complete {first : Char} {rest after : List Char} {lexeme : Lexeme}
    (spelled : lexeme.IsSpelled) (whole : first :: rest = lexeme.text ++ after)
    (halts : Halts lexeme.runsInto after) : read first rest = .ok (lexeme, after) := by
  obtain ⟨kind, text⟩ := lexeme
  cases kind with
  | startOfInput | endOfInput => cases spelled
  | plus | minus | times | comma =>
    obtain rfl : text = _ := spelled
    cases whole
    rfl
  | relation relation =>
    cases relation with
    | equal =>
      rcases spelled with rfl | rfl
      · cases whole
        cases after with
        | nil => rfl
        | cons next rest =>
          have single : next ≠ '=' := by simpa [runsInto] using halts
          unfold read
          split <;> first | rfl | simp_all
      · cases whole
        rfl
    | atMost | atLeast =>
      rcases spelled with rfl | rfl
      · cases whole
        rfl
      · cases whole
        rfl
  | coefficient =>
    obtain ⟨initial, others, rfl, numeral⟩ := Literal.exists_startsNumeral spelled
    cases whole
    obtain ⟨plain, noSymbol⟩ := plain_of_startsNumeral numeral
    have taken : Literal.take (first :: (others ++ after)) = .ok (first :: others, after) :=
      Literal.take_eq_ok.mpr ⟨rfl, spelled, halts⟩
    simp [read_of_plain plain, noSymbol, numeral, taken, Except.map]
  | name =>
    obtain ⟨initial, others, rfl, name, inside⟩ := spelled
    cases whole
    obtain ⟨plain, noSymbol⟩ := plain_of_startsName name
    obtain ⟨taken, left⟩ := span_iff.mpr ⟨rfl, inside, halts⟩
    simp [read_of_plain plain, noSymbol, startsNumeral_of_startsName name, name, taken, left]

/-- Reading a lexeme is recognizing one that does not run into what follows. -/
theorem read_eq_ok {first : Char} {rest after : List Char} {lexeme : Lexeme} :
    read first rest = .ok (lexeme, after) ↔
      first :: rest = lexeme.text ++ after ∧ lexeme.IsSpelled ∧ Halts lexeme.runsInto after := by
  constructor
  · intro success
    exact ⟨(read_append success).symm, read_sound success⟩
  · rintro ⟨whole, spelled, halts⟩
    exact read_complete spelled whole halts

/-! ### Characters of a lexeme -/

/-- A character that is a lexeme by itself, and belongs to no longer one, is in no other lexeme. -/
theorem notMem_of_symbol {c : Char} {own kind : Kind} {text : List Char}
    (known : symbol? c = some own) (noRelation : own.isRelation = false)
    (noNumeral : Literal.inNumeral c = false) (noName : continuesName c = false)
    (spelled : Spells kind text) (other : kind ≠ own) : c ∉ text := by
  cases kind with
  | startOfInput | endOfInput => cases spelled
  | plus | minus | times | comma =>
    obtain rfl : text = _ := spelled
    intro member
    obtain rfl := List.mem_singleton.mp member
    exact other (Option.some.inj known)
  | relation relation =>
    -- The characters of relational operators are relational operators or no lexemes.
    have operator : ∀ d ∈ text, d = '=' ∨ d = '<' ∨ d = '>' ∨ d = '≤' ∨ d = '≥' := by
      cases relation <;> rcases spelled with rfl | rfl <;> simp
    intro member
    rcases operator c member with rfl | rfl | rfl | rfl | rfl <;> cases known <;> cases noRelation
  | coefficient =>
    obtain ⟨⟨whole, fraction, exponent, rfl, parts⟩, -⟩ := spelled
    exact notMem_of_class noNumeral parts.inNumeral
  | name =>
    obtain ⟨first, rest, rfl, starts, continues⟩ := spelled
    apply notMem_of_class noName
    exact List.forall_mem_cons.mpr ⟨by simp [continuesName, starts], continues⟩

end LinearSystem.Lexeme
