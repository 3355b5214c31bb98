import LinearSystem.Equation.Printer
import LinearSystem.Proofs.Binary64.Arithmetic
import LinearSystem.Proofs.Decimal.Positional
import LinearSystem.Proofs.Equation.Parsed
/-!
What a printed equation is read as.

A number is printed as a sign, where it needs one, and digits. The lexemes of a line follow from
that, term by term (`Equation.readsAs_render`), and they are those of an equation
(`Equation.isEquation_items`). Lines are put together with commas in the text as their lexemes are
with commas among them (`readsAs_intercalate`).
-/
namespace LinearSystem

open Binary64 Text Grammar

/-! ### Texts put together -/

theorem readsAs_nil : ReadsAs [] [] := by
  refine ⟨[], [], ?_, trivial, rfl, rfl⟩
  simp

/-- Nothing or layout comes next. -/
def Ends (text : List Char) : Prop := Halts (fun c => !isLayout c) text

theorem ends_nil : Ends [] := halts_nil _

theorem ends_blank (text : List Char) : Ends (' ' :: text) := halts_cons.mpr (by decide)

theorem Ends.halts {text : List Char} (ends : Ends text) (lexeme : Lexeme) :
    Halts lexeme.runsInto text := by
  apply Halts.mono ends
  intro c layout
  exact lexeme.runsInto_of_isLayout (by simpa using layout)

namespace ReadsAs

variable {text : List Char} {items : Items}

theorem blank (reads : ReadsAs text items) : ReadsAs (' ' :: text) items := by
  obtain ⟨gap, body, layout, formed, rfl, rfl⟩ := reads
  exact ⟨' ' :: gap, body, List.forall_mem_cons.mpr ⟨by decide, layout⟩, formed, rfl, rfl⟩

theorem cons {kind : Kind} {spelling : String} (spelled : Lexeme.Spells kind spelling.toList)
    (halts : Halts (Lexeme.runsInto ⟨kind, spelling.toList⟩) text) (reads : ReadsAs text items) :
    ReadsAs (spelling.toList ++ text) ((kind, spelling) :: items) := by
  obtain ⟨gap, body, layout, formed, rfl, rfl⟩ := reads
  refine ⟨[], (⟨kind, spelling.toList⟩, gap) :: body, by simp, ?_, rfl, ?_⟩
  · refine ⟨spelled, layout, ?_, formed⟩
    rintro rfl
    exact halts
  · simp [Spaced.items]

theorem minus (reads : ReadsAs text items) : ReadsAs ('-' :: text) ((.minus, "-") :: items) :=
  @cons text items .minus "-" rfl (halts_of_never (fun _ => rfl) text) reads

theorem plus (reads : ReadsAs text items) : ReadsAs ('+' :: text) ((.plus, "+") :: items) :=
  @cons text items .plus "+" rfl (halts_of_never (fun _ => rfl) text) reads

end ReadsAs

/-- Texts are read with commas between them as their parts are. -/
theorem readsAs_intercalate {texts : List (List Char)} {parts : List Items}
    (each : List.Forall₂ ReadsAs texts parts) :
    ReadsAs ([',', ' '].intercalate texts) ([(.comma, ",")].intercalate parts) := by
  induction each with
  | nil => exact readsAs_nil
  | @cons text part texts parts first later ih =>
    cases later with
    | nil => simpa using first
    | cons second others =>
      rw [List.intercalate_cons_cons, List.intercalate_cons_cons, List.append_assoc,
        List.append_assoc]
      -- The blank after the comma is layout in front of the rest.
      exact first.append_comma ih.blank

/-- Parts without commas are what stands between the commas that are put between them. -/
theorem splitOnP_intercalate {parts : List Items} (nonempty : parts ≠ [])
    (noCommas : ∀ part ∈ parts, ∀ item ∈ part, isCommaItem item = false) :
    ([(.comma, ",")].intercalate parts : Items).splitOnP isCommaItem = parts := by
  induction parts with
  | nil => contradiction
  | cons part rest ih =>
    obtain ⟨noComma, later⟩ := List.forall_mem_cons.mp noCommas
    cases rest with
    | nil => simpa using List.splitOnP_eq_singleton noComma
    | cons next others =>
      rw [List.intercalate_cons_cons, List.append_assoc, List.singleton_append,
        List.splitOnP_append_cons_of_forall_mem noComma _ (by decide), ih (by simp) later]

/-! ### Sides put together -/

/-- A sign may stand before a side that does not start with one. -/
theorem isSide_sign {side : List Kind} (sign : Kind) (isSign : sign.isSign = true)
    (isSide : IsSide side) (unsigned : ∀ kind ∈ side.head?, kind.isSign = false) :
    IsSide (sign :: side) := by
  have onSide : sign.isOnSide = true := by cases sign <;> first | rfl | cases isSign
  have noTimes : sign ≠ .times := by rintro rfl; cases isSign
  refine ⟨List.forall_mem_cons.mpr ⟨onSide, isSide.onSide⟩, List.cons_ne_nil sign side, ?_, ?_, ?_⟩
  · rw [List.getLast?_cons_of_ne_nil isSide.nonempty]
    exact isSide.closed
  · refine List.isChain_cons.mpr ⟨?_, isSide.apart⟩
    intro kind first
    simp [Apart, unsigned kind first, noTimes]
  · exact (singleVariables_sign isSign false side).mpr isSide.single

/-- Two sides with a sign between make a side, if the second does not start with a sign. -/
theorem isSide_append_sign {front side : List Kind} (sign : Kind) (isSign : sign.isSign = true)
    (before : IsSide front) (isSide : IsSide side)
    (unsigned : ∀ kind ∈ side.head?, kind.isSign = false) :
    IsSide (front ++ sign :: side) := by
  have signed := isSide_sign sign isSign isSide unsigned
  refine ⟨List.forall_mem_append.mpr ⟨before.onSide, signed.onSide⟩, by simp, ?_, ?_, ?_⟩
  · rw [List.getLast?_append_of_ne_nil _ signed.nonempty]
    exact signed.closed
  · refine List.isChain_append.mpr ⟨before.apart, signed.apart, ?_⟩
    rintro kind ended _ ⟨⟩
    exact (apart_sign isSign).mpr (before.closed kind ended)
  · -- The sign ends one run and starts the next, so no run reaches over it.
    intro run among
    rw [List.splitOnP_append_cons _ _ isSign, List.mem_append] at among
    rcases among with among | among
    · exact before.single run among
    · exact isSide.single run among

/-- Factors beside each other, of which at most one is a variable. -/
theorem isSide_factors {side : List Kind}
    (factors : ∀ kind ∈ side, kind = .coefficient ∨ kind = .name) (nonempty : side ≠ [])
    (single : side.count .name ≤ 1) : IsSide side := by
  have noSigns : ∀ kind ∈ side, kind.isSign = false := by
    intro kind member
    rcases factors kind member with rfl | rfl <;> decide
  refine ⟨?_, nonempty, ?_, ?_, ?_⟩
  · intro kind member
    rcases factors kind member with rfl | rfl <;> decide
  · intro kind ended
    exact noSigns kind (List.mem_of_getLast? ended)
  · apply List.Pairwise.isChain
    apply List.pairwise_of_forall_mem_list
    intro first _ second member
    apply apart_other (noSigns second member)
    rcases factors second member with rfl | rfl <;> decide
  · intro run among
    rw [List.splitOnP_eq_singleton noSigns] at among
    rwa [List.mem_singleton.mp among]

theorem isSide_coefficient : IsSide [.coefficient] :=
  isSide_factors (by simp) (by simp) (by decide)

theorem isSide_product : IsSide [.coefficient, .name] :=
  isSide_factors (by simp) (by simp) (by decide)

namespace Equation

/-! ### Numbers -/

/-- The digits of a number, without its sign. -/
def digits (x : Float) : String :=
  (Decimal.shortest .up (magnitudeBits x)).positional ""

/-- The sign of a number, whether it needs one or not. -/
def signItem (x : Float) : Kind × String := if isNegative x then (.minus, "-") else (.plus, "+")

/-- The lexemes of a number. -/
def numberItems (x : Float) : Items :=
  if isNegative x then [(.minus, "-"), (.coefficient, digits x)] else [(.coefficient, digits x)]

section

variable {x : Float} (finite : x.isFinite = true)

include finite

theorem number_eq : number x = if isNegative x then "-" ++ digits x else digits x := by
  have below := isFinite_iff.mp finite
  rw [number, NumeralStyle.write, Numeral.ofFloat]
  simp only [NumeralStyle.line, below, if_true, NumeralStyle.writeNumeral]
  rfl

theorem digits_neg : digits (-x) = digits x := by
  rw [digits, digits, magnitudeBits_neg finite]

theorem isNumeralOf_digits : Decimal.IsNumeralOf (digits x).toList (magnitudeBits x) :=
  Decimal.isNumeralOf_shortest .up (isFinite_iff.mp finite)

theorem readsAs_number {text : List Char} {items : Items} (ends : Ends text)
    (reads : ReadsAs text items) :
    ReadsAs ((number x).toList ++ text) (numberItems x ++ items) := by
  have unsigned : ReadsAs ((digits x).toList ++ text) ((.coefficient, digits x) :: items) :=
    reads.cons (isNumeralOf_digits finite).literal (ends.halts _)
  rw [number_eq finite, numberItems]
  cases isNegative x with
  | false => exact unsigned
  | true =>
    simp only [if_true, String.toList_append, List.append_assoc]
    exact unsigned.minus

end

/-! ### Terms -/

/-- A name that can be read, with a coefficient that makes a difference. -/
structure IsPrintableTerm (term : String × Float) : Prop where
  name : Lexeme.Spells .name term.1.toList
  finite : term.2.isFinite = true
  nonzero : (term.2 == 0) = false

/-- The lexemes of the first term of a line. -/
def firstItems (term : String × Float) : Items := numberItems term.2 ++ [(.name, term.1)]

/-- The lexemes of a later term of a line. -/
def laterItems (term : String × Float) : Items :=
  [signItem term.2, (.coefficient, digits term.2), (.name, term.1)]

/-- The lexemes of the left side of a line. -/
def leftItems : List (String × Float) → Items
  | [] => [(.coefficient, "0")]
  | term :: rest => firstItems term ++ rest.flatMap laterItems

/-- The lexemes of a line. -/
def items (equation : Equation Float) (table : SymbolTable) : Items :=
  leftItems (equation.terms table) ++
    (.relation equation.relation, equation.relation.spelling) :: numberItems equation.bound

section

variable {term : String × Float} (printable : IsPrintableTerm term) {text : List Char}
  {rest : Items} (ends : Ends text) (reads : ReadsAs text rest)

include printable ends reads

theorem readsAs_firstTerm :
    ReadsAs ((firstTerm term.1 term.2).toList ++ text) (firstItems term ++ rest) := by
  -- The blank before the name keeps it apart from the digits, also where it starts with `e`.
  have named := reads.cons printable.name (ends.halts _)
  have whole := readsAs_number printable.finite (ends_blank _) named.blank
  rw [firstTerm, String.toList_append, String.toList_append, List.append_assoc, List.append_assoc,
    firstItems, List.append_assoc]
  exact whole

theorem readsAs_laterTerm :
    ReadsAs ((laterTerm term.1 term.2).toList ++ text) (laterItems term ++ rest) := by
  obtain ⟨name, finite, nonzero⟩ := printable
  have less := lt_zero_iff finite nonzero
  cases sign : isNegative term.2 with
  | true =>
    -- The opposite of a negative number is written without a sign.
    have opposite : IsPrintableTerm (term.1, -term.2) :=
      ⟨name, isFinite_neg finite, neg_beq_zero finite nonzero⟩
    have unsigned := readsAs_firstTerm opposite ends reads
    have positive : isNegative (-term.2) = false := by rw [isNegative_neg finite, sign]; rfl
    rw [laterTerm, if_pos (less.mpr sign), laterItems, signItem, sign]
    simp only [firstItems, numberItems, positive, digits_neg finite, firstTerm,
      String.toList_append, List.append_assoc] at unsigned
    simp only [String.toList_append, List.append_assoc]
    exact unsigned.blank.minus.blank
  | false =>
    have unsigned := readsAs_firstTerm ⟨name, finite, nonzero⟩ ends reads
    have notLess : ¬term.2 < 0 := by rw [less, sign]; decide
    rw [laterTerm, if_neg notLess, laterItems, signItem, sign]
    simp only [firstItems, numberItems, sign, firstTerm, String.toList_append,
      List.append_assoc] at unsigned
    simp only [String.toList_append, List.append_assoc]
    exact unsigned.blank.plus.blank

end

theorem ends_laterTerm (name : String) (coefficient : Float) (text : List Char) :
    Ends ((laterTerm name coefficient).toList ++ text) := by
  unfold laterTerm
  split
  · simp only [String.toList_append, List.append_assoc]
    exact ends_blank _
  · simp only [String.toList_append, List.append_assoc]
    exact ends_blank _

/-! ### Lines -/

section

variable {terms : List (String × Float)} (printable : ∀ term ∈ terms, IsPrintableTerm term)
  {text : List Char} {rest : Items} (ends : Ends text) (reads : ReadsAs text rest)

include printable ends reads

theorem readsAs_laterTerms :
    let whole := terms.flatMap (fun term => (laterTerm term.1 term.2).toList) ++ text
    Ends whole ∧ ReadsAs whole (terms.flatMap laterItems ++ rest) := by
  induction terms with
  | nil => exact ⟨ends, reads⟩
  | cons term others ih =>
    obtain ⟨here, later⟩ := List.forall_mem_cons.mp printable
    obtain ⟨laterEnds, laterReads⟩ := ih later
    simp only [List.flatMap_cons, List.append_assoc]
    exact ⟨ends_laterTerm _ _ _, readsAs_laterTerm here laterEnds laterReads⟩

theorem readsAs_leftSide :
    ReadsAs ((leftSide terms).toList ++ text) (leftItems terms ++ rest) := by
  cases terms with
  | nil =>
    have zero : Literal.IsLiteral ['0'] := by
      refine ⟨⟨['0'], [], [], rfl, .inr (.inl rfl), .inl rfl, .inl (by simp), .inl rfl⟩, ?_⟩
      decide
    exact @ReadsAs.cons text rest .coefficient "0" zero (ends.halts _) reads
  | cons term others =>
    obtain ⟨here, later⟩ := List.forall_mem_cons.mp printable
    obtain ⟨laterEnds, laterReads⟩ := readsAs_laterTerms later ends reads
    have whole := readsAs_firstTerm here laterEnds laterReads
    simpa [leftSide, leftItems, String.toList_join, List.flatMap_map] using whole

end

/-- An equation that can be printed and read back: its variables have names that can be read, its
coefficients are finite and not zero, and its bound is finite and not negative zero. -/
structure IsPrintable (table : SymbolTable) (equation : Equation Float) : Prop where
  named : equation.IsNamed table
  terms : ∀ term ∈ equation.namedTerms table, IsPrintableTerm term
  finite : equation.bound.isFinite = true
  notNegativeZero : equation.bound ≠ -0

theorem IsPrintable.sorted {table : SymbolTable} {equation : Equation Float}
    (printable : equation.IsPrintable table) :
    ∀ term ∈ equation.terms table, IsPrintableTerm term := by
  intro term member
  exact printable.terms term ((sortByName_perm _).subset member)

/-- A printed equation is read as its lexemes. -/
theorem readsAs_render {table : SymbolTable} {equation : Equation Float}
    (printable : equation.IsPrintable table) :
    ReadsAs (equation.render table).toList (equation.items table) := by
  have spelled : Lexeme.Spells (.relation equation.relation) equation.relation.spelling.toList := by
    cases equation.relation <;> exact .inl rfl
  have bound := readsAs_number printable.finite ends_nil readsAs_nil
  have related := bound.blank.cons spelled ((ends_blank _).halts _)
  have whole := readsAs_leftSide printable.sorted (ends_blank _) related.blank
  simpa [render, items] using whole

/-! ### The grammar of lines -/

theorem isSide_numberItems (x : Float) : IsSide ((numberItems x).map Prod.fst) := by
  unfold numberItems
  split
  · exact isSide_sign .minus rfl isSide_coefficient (by simp [Kind.isSign])
  · exact isSide_coefficient

theorem isSide_terms (terms : List (String × Float)) :
    IsSide (.coefficient :: .name :: (terms.flatMap laterItems).map Prod.fst) := by
  induction terms with
  | nil => exact isSide_product
  | cons term rest ih =>
    have unsigned : ∀ kind ∈ (Kind.coefficient :: .name ::
        (rest.flatMap laterItems).map Prod.fst).head?, kind.isSign = false := by
      rintro kind ⟨⟩
      rfl
    cases sign : isNegative term.2 with
    | true =>
      have joined := isSide_append_sign .minus rfl isSide_product ih unsigned
      simpa [laterItems, signItem, sign] using joined
    | false =>
      have joined := isSide_append_sign .plus rfl isSide_product ih unsigned
      simpa [laterItems, signItem, sign] using joined

theorem isSide_leftItems (terms : List (String × Float)) :
    IsSide ((leftItems terms).map Prod.fst) := by
  cases terms with
  | nil => exact isSide_coefficient
  | cons term rest =>
    have side := isSide_terms rest
    rw [leftItems, firstItems, numberItems]
    split
    · have signed := isSide_sign .minus rfl side (by simp [Kind.isSign])
      simpa using signed
    · simpa using side

theorem isEquation_items (equation : Equation Float) (table : SymbolTable) :
    IsEquation ((equation.items table).map Prod.fst) := by
  refine ⟨_, equation.relation, _, ?_, isSide_leftItems (equation.terms table),
    isSide_numberItems equation.bound⟩
  rw [items, List.map_append, List.map_cons]

end Equation

end LinearSystem
