import LinearSystem.Token.Literal
import Mathlib.Data.List.TakeWhile
/-!
The grammar of numerals, and that taking a numeral is recognizing it.

The grammar says of a whole text what its parts are and nothing of where it stands
(`IsWhole`, `IsFraction`, `IsExponent`, `IsLiteral`). A numeral is taken off the front of a text
exactly if one stands there and nothing follows it that it would run into (`take_eq_ok`).
-/
namespace LinearSystem

namespace Text

/-! ### The longest prefix of a class -/

/-- No character of a class comes first. -/
def Halts (accepts : Char → Bool) (text : List Char) : Prop := text.head?.any accepts = false

@[simp] theorem halts_nil (accepts : Char → Bool) : Halts accepts [] := rfl

@[simp] theorem halts_cons {accepts : Char → Bool} {c : Char} {rest : List Char} :
    Halts accepts (c :: rest) ↔ accepts c = false := by
  simp [Halts]

theorem halts_of_never {accepts : Char → Bool} (never : ∀ c, accepts c = false)
    (text : List Char) : Halts accepts text := by
  cases text with
  | nil => rfl
  | cons c rest => exact halts_cons.mpr (never c)

theorem Halts.mono {accepts fewer : Char → Bool} {text : List Char}
    (halts : Halts accepts text) (less : ∀ c, accepts c = false → fewer c = false) :
    Halts fewer text := by
  cases text with
  | nil => rfl
  | cons c rest => exact halts_cons.mpr (less c (halts_cons.mp halts))

/-- A text is cut in one way into characters of a class and a rest that starts with no other. -/
theorem span_iff {accepts : Char → Bool} {text front rest : List Char} :
    text.takeWhile accepts = front ∧ text.dropWhile accepts = rest ↔
      text = front ++ rest ∧ (∀ c ∈ front, accepts c = true) ∧ Halts accepts rest := by
  constructor
  · rintro ⟨rfl, rfl⟩
    refine ⟨List.takeWhile_append_dropWhile.symm, fun c => List.mem_takeWhile_imp, ?_⟩
    cases left : text.dropWhile accepts with
    | nil => rfl
    | cons c rest =>
      have first := List.head?_dropWhile_not accepts text
      simpa [left] using first
  · rintro ⟨rfl, inside, halts⟩
    rw [List.takeWhile_append_of_pos inside, List.dropWhile_append_of_pos inside]
    cases rest with
    | nil => simp
    | cons c rest => simp [halts_cons.mp halts]

theorem notMem_of_class {c : Char} {accepts : Char → Bool} (none : accepts c = false)
    {text : List Char} (inside : ∀ c ∈ text, accepts c = true) : c ∉ text := by
  intro member
  rw [inside c member] at none
  cases none

end Text

namespace Literal

open Text

/-! ### The grammar -/

/-- Digits, at least one. -/
def IsDigits (text : List Char) : Prop := text ≠ [] ∧ ∀ c ∈ text, c.isDigit = true

/-- A whole number without a leading zero. -/
def IsWhole (text : List Char) : Prop := text = ['0'] ∨ IsDigits text ∧ text.head? ≠ some '0'

/-- A point and digits. -/
def IsFraction (text : List Char) : Prop := ∃ digits, text = '.' :: digits ∧ IsDigits digits

/-- A mark, perhaps a sign, and digits. -/
def IsExponent (text : List Char) : Prop :=
  ∃ mark sign digits, text = mark :: (sign ++ digits) ∧ marksExponent mark = true ∧
    (sign = [] ∨ sign = ['+'] ∨ sign = ['-']) ∧ IsDigits digits

/-- A whole number or a fraction or both, and perhaps an exponent. -/
structure HasParts (whole fraction exponent : List Char) : Prop where
  isWhole : whole = [] ∨ IsWhole whole
  isFraction : fraction = [] ∨ IsFraction fraction
  nonempty : whole ≠ [] ∨ fraction ≠ []
  isExponent : exponent = [] ∨ IsExponent exponent

/-- A numeral that rounds to a finite number. -/
def IsLiteral (text : List Char) : Prop :=
  (∃ whole fraction exponent, text = whole ++ fraction ++ exponent ∧
    HasParts whole fraction exponent) ∧ isFinite text = true

theorem isLiteral_of_digit {digit : Char} (isDigit : digit.isDigit = true) (nonzero : digit ≠ '0')
    (finite : isFinite [digit] = true) : IsLiteral [digit] := by
  have digits : IsDigits [digit] := ⟨by simp, by simpa using isDigit⟩
  have whole : IsWhole [digit] := .inr ⟨digits, by simpa using nonzero⟩
  exact ⟨⟨[digit], [], [], rfl, .inr whole, .inl rfl, .inl (by simp), .inl rfl⟩, finite⟩

/-- The characters that numerals are made of. -/
def inNumeral (c : Char) : Bool :=
  c.isDigit || c == '.' || marksExponent c || c == '+' || c == '-'

theorem IsDigits.inNumeral {text : List Char} (digits : IsDigits text) :
    ∀ c ∈ text, inNumeral c = true := by
  intro c member
  simp [Literal.inNumeral, digits.2 c member]

theorem IsWhole.inNumeral {text : List Char} (whole : IsWhole text) :
    ∀ c ∈ text, inNumeral c = true := by
  rcases whole with rfl | ⟨digits, -⟩
  · simp [Literal.inNumeral]
  · exact digits.inNumeral

theorem IsFraction.inNumeral {text : List Char} (fraction : IsFraction text) :
    ∀ c ∈ text, inNumeral c = true := by
  obtain ⟨digits, rfl, isDigits⟩ := fraction
  exact List.forall_mem_cons.mpr ⟨rfl, isDigits.inNumeral⟩

theorem IsExponent.inNumeral {text : List Char} (exponent : IsExponent text) :
    ∀ c ∈ text, inNumeral c = true := by
  obtain ⟨mark, sign, digits, rfl, marks, isSign, isDigits⟩ := exponent
  rw [List.forall_mem_cons, List.forall_mem_append]
  refine ⟨by simp [Literal.inNumeral, marks], ?_, isDigits.inNumeral⟩
  rcases isSign with rfl | rfl | rfl <;> simp [Literal.inNumeral]

theorem HasParts.inNumeral {whole fraction exponent : List Char}
    (parts : HasParts whole fraction exponent) :
    ∀ c ∈ whole ++ fraction ++ exponent, inNumeral c = true := by
  obtain ⟨isWhole, isFraction, -, isExponent⟩ := parts
  rw [List.forall_mem_append, List.forall_mem_append]
  refine ⟨⟨?_, ?_⟩, ?_⟩
  · rcases isWhole with rfl | isWhole
    · exact List.forall_mem_nil _
    · exact isWhole.inNumeral
  · rcases isFraction with rfl | isFraction
    · exact List.forall_mem_nil _
    · exact isFraction.inNumeral
  · rcases isExponent with rfl | isExponent
    · exact List.forall_mem_nil _
    · exact isExponent.inNumeral

def hasExponent (text : List Char) : Bool := text.any marksExponent

/-- The characters that a numeral would run into. -/
def runsInto (hasExponent : Bool) (next : Char) : Bool :=
  next.isDigit || next == '.' || marksExponent next || (hasExponent && startsName next)

/-! ### By the next character -/

/-- A zero is taken by itself unless a digit follows. -/
theorem takeWhole_zero (text : List Char) :
    takeWhole ('0' :: text) =
      match text.head?.filter Char.isDigit with
      | some next => .error ⟨1, .digitAfterZero next⟩
      | none => .ok (['0'], text) := by
  cases text with
  | nil => rfl
  | cons next rest =>
    by_cases digit : next.isDigit
    · simp [takeWhole, Option.filter, digit]
    · simp [takeWhole, Option.filter, digit]

theorem takeWhole_other {text : List Char} (noPoint : text.head? ≠ some '.')
    (noZero : text.head? ≠ some '0') : takeWhole text = takeDigits 0 text := by
  unfold takeWhole
  split
  · exact absurd rfl noPoint
  · exact absurd rfl noZero
  · rfl

theorem takeFraction_other (seen : Nat) {text : List Char} (noPoint : text.head? ≠ some '.') :
    takeFraction seen text = .ok ([], text) := by
  unfold takeFraction
  split
  · exact absurd rfl noPoint
  · rfl

theorem takeSign_other {text : List Char} (noPlus : text.head? ≠ some '+')
    (noMinus : text.head? ≠ some '-') : takeSign text = ([], text) := by
  unfold takeSign
  split
  · exact absurd rfl noPlus
  · exact absurd rfl noMinus
  · rfl

theorem takeExponent_other (seen : Nat) {text : List Char}
    (noMark : text.head?.filter marksExponent = none) :
    takeExponent seen text = .ok ([], text) := by
  cases text with
  | nil => rfl
  | cons mark rest =>
    have other : marksExponent mark = false := by simpa [Option.filter] using noMark
    simp [takeExponent, other]

theorem dangling?_eq_filter (has : Bool) (text : List Char) :
    dangling? has text = text.head?.filter fun next => next == '.' || has && startsName next := by
  cases text with
  | nil => rfl
  | cons next rest => simp [dangling?, Option.filter]

/-! ### Taking parts -/

theorem takeDigits_eq_ok {seen : Nat} {text digits rest : List Char} :
    takeDigits seen text = .ok (digits, rest) ↔
      text = digits ++ rest ∧ IsDigits digits ∧ Halts Char.isDigit rest := by
  simp only [takeDigits, IsDigits]
  constructor
  · intro taken
    split at taken
    · cases taken
    next some =>
      simp only [Except.ok.injEq, Prod.mk.injEq] at taken
      obtain ⟨whole, inside, halts⟩ := span_iff.mp taken
      refine ⟨whole, ⟨?_, inside⟩, halts⟩
      simpa [taken.1] using some
  · rintro ⟨whole, ⟨some, inside⟩, halts⟩
    obtain ⟨taken, left⟩ := span_iff.mpr ⟨whole, inside, halts⟩
    simp [taken, left, some]

theorem isDigit_of_isDigits {c : Char} {rest : List Char} (digits : IsDigits (c :: rest)) :
    c.isDigit = true := digits.2 c (by simp)

theorem takeWhole_eq_ok {text whole rest : List Char} :
    takeWhole text = .ok (whole, rest) ↔ text = whole ++ rest ∧
      (whole = [] ∧ rest.head? = some '.' ∨ IsWhole whole ∧ Halts Char.isDigit rest) := by
  constructor
  · intro taken
    refine ⟨(takeWhole_append taken).symm, ?_⟩
    unfold takeWhole at taken
    split at taken
    · cases taken
      left
      simp
    next next after =>
      split at taken
      · cases taken
      next noDigit =>
        cases taken
        right
        exact ⟨.inl rfl, by simpa using noDigit⟩
    next text noPoint noZero =>
      obtain ⟨rfl, digits, halts⟩ := takeDigits_eq_ok.mp taken
      refine .inr ⟨?_, halts⟩
      by_cases zero : whole.head? = some '0'
      · -- Nothing may follow a leading zero, so the zero is all there is.
        obtain ⟨others, rfl⟩ := List.head?_eq_some_iff.mp zero
        cases others with
        | nil => exact .inl rfl
        | cons next others => exact absurd rfl (noZero next (others ++ rest))
      · exact .inr ⟨digits, zero⟩
  · rintro ⟨rfl, ⟨rfl, point⟩ | ⟨rfl | ⟨digits, noZero⟩, halts⟩⟩
    · obtain ⟨after, rfl⟩ := List.head?_eq_some_iff.mp point
      rfl
    · cases rest with
      | nil => rfl
      | cons next after => simpa [takeWhole] using halts
    · obtain ⟨first, others, rfl⟩ := List.exists_cons_of_ne_nil digits.1
      have isDigit := isDigit_of_isDigits digits
      have taken : takeDigits 0 (first :: others ++ rest) = .ok (first :: others, rest) :=
        takeDigits_eq_ok.mpr ⟨rfl, digits, halts⟩
      -- Neither a point nor a zero comes first, so the digits are taken.
      unfold takeWhole
      split
      next same =>
        rw [(List.cons.inj same).1] at isDigit
        cases isDigit
      next same => exact absurd (congrArg some (List.cons.inj same).1) noZero
      next => exact taken

theorem takeFraction_eq_ok {seen : Nat} {text fraction rest : List Char} :
    takeFraction seen text = .ok (fraction, rest) ↔ text = fraction ++ rest ∧
      (fraction = [] ∧ rest.head? ≠ some '.' ∨ IsFraction fraction ∧ Halts Char.isDigit rest) := by
  constructor
  · intro taken
    refine ⟨(takeFraction_append taken).symm, ?_⟩
    unfold takeFraction at taken
    split at taken
    next after =>
      cases digitsTaken : takeDigits (seen + 1) after with
      | error refusal =>
        rw [digitsTaken] at taken
        cases taken
      | ok part =>
        obtain ⟨digits, left⟩ := part
        rw [digitsTaken] at taken
        cases taken
        obtain ⟨-, isDigits, halts⟩ := takeDigits_eq_ok.mp digitsTaken
        exact .inr ⟨⟨digits, rfl, isDigits⟩, halts⟩
    next noPoint =>
      cases taken
      left
      refine ⟨rfl, ?_⟩
      intro point
      obtain ⟨after, rfl⟩ := List.head?_eq_some_iff.mp point
      exact noPoint after rfl
  · rintro ⟨rfl, ⟨rfl, noPoint⟩ | ⟨⟨digits, rfl, isDigits⟩, halts⟩⟩
    · unfold takeFraction
      split
      next same =>
        rw [List.nil_append] at same
        simp [same] at noPoint
      · rfl
    · have taken : takeDigits (seen + 1) (digits ++ rest) = .ok (digits, rest) :=
        takeDigits_eq_ok.mpr ⟨rfl, isDigits, halts⟩
      simp [takeFraction, taken, Except.map]

theorem takeSign_of_digits {sign digits : List Char} (rest : List Char)
    (isSign : sign = [] ∨ sign = ['+'] ∨ sign = ['-']) (isDigits : IsDigits digits) :
    takeSign (sign ++ (digits ++ rest)) = (sign, digits ++ rest) := by
  rcases isSign with rfl | rfl | rfl
  · obtain ⟨first, others, rfl⟩ := List.exists_cons_of_ne_nil isDigits.1
    have isDigit := isDigit_of_isDigits isDigits
    unfold takeSign
    split
    next same =>
      rw [(List.cons.inj same).1] at isDigit
      cases isDigit
    next same =>
      rw [(List.cons.inj same).1] at isDigit
      cases isDigit
    · rfl
  · rfl
  · rfl

theorem isSign_takeSign (text : List Char) :
    (takeSign text).1 = [] ∨ (takeSign text).1 = ['+'] ∨ (takeSign text).1 = ['-'] := by
  unfold takeSign
  split <;> simp

theorem takeExponent_eq_ok {seen : Nat} {text exponent rest : List Char} :
    takeExponent seen text = .ok (exponent, rest) ↔ text = exponent ++ rest ∧
      (exponent = [] ∧ Halts marksExponent rest ∨
        IsExponent exponent ∧ Halts Char.isDigit rest) := by
  constructor
  · intro taken
    refine ⟨(takeExponent_append taken).symm, ?_⟩
    unfold takeExponent at taken
    split at taken
    · cases taken
      simp
    next mark after =>
      split at taken
      next marks =>
        cases digitsTaken :
            takeDigits (seen + 1 + (takeSign after).1.length) (takeSign after).2 with
        | error refusal =>
          simp only [digitsTaken] at taken
          cases taken
        | ok part =>
          obtain ⟨digits, left⟩ := part
          simp only [digitsTaken] at taken
          cases taken
          obtain ⟨-, isDigits, halts⟩ := takeDigits_eq_ok.mp digitsTaken
          exact .inr ⟨⟨mark, _, digits, rfl, marks, isSign_takeSign after, isDigits⟩, halts⟩
      next noMark =>
        cases taken
        left
        exact ⟨rfl, by simpa using noMark⟩
  · rintro ⟨rfl, ⟨rfl, halts⟩ | ⟨⟨mark, sign, digits, rfl, marks, isSign, isDigits⟩, halts⟩⟩
    · cases rest with
      | nil => rfl
      | cons next after => simp [takeExponent, halts_cons.mp halts]
    · have signTaken := takeSign_of_digits rest isSign isDigits
      have taken : takeDigits (seen + 1 + sign.length) (digits ++ rest) = .ok (digits, rest) :=
        takeDigits_eq_ok.mpr ⟨rfl, isDigits, halts⟩
      simp [takeExponent, marks, signTaken, taken, Except.map]

/-! ### Taking a numeral -/

theorem startsName_of_marksExponent {c : Char} (marks : marksExponent c = true) :
    startsName c = true := by
  simp only [marksExponent, Bool.or_eq_true, beq_iff_eq] at marks
  rcases marks with rfl | rfl <;> rfl

theorem halts_runsInto_iff {has : Bool} {rest : List Char} :
    Halts (runsInto has) rest ↔ Halts Char.isDigit rest ∧ Halts marksExponent rest ∧
      Halts (fun c => c == '.' || has && startsName c) rest := by
  cases rest with
  | nil => simp
  | cons next rest =>
    simp only [halts_cons, runsInto, Bool.or_eq_false_iff]
    constructor
    · rintro ⟨⟨⟨digit, point⟩, mark⟩, name⟩
      exact ⟨digit, mark, point, name⟩
    · rintro ⟨digit, mark, point, name⟩
      exact ⟨⟨⟨digit, point⟩, mark⟩, name⟩

/-- Neither a digit nor a point comes first in an exponent. -/
theorem halts_of_exponent {exponent rest : List Char} {has : Bool}
    (isExponent : exponent = [] ∨ IsExponent exponent) (halts : Halts (runsInto has) rest) :
    Halts (fun c => c.isDigit || c == '.') (exponent ++ rest) := by
  rcases isExponent with rfl | ⟨mark, sign, digits, rfl, marks, -, -⟩
  · apply halts.mono
    intro c free
    simp only [runsInto, Bool.or_eq_false_iff] at free ⊢
    exact free.1.1
  · simp only [marksExponent, Bool.or_eq_true, beq_iff_eq] at marks
    rcases marks with rfl | rfl <;> simp

theorem dangling?_eq_none {has : Bool} {rest : List Char} :
    dangling? has rest = none ↔ Halts (fun c => c == '.' || has && startsName c) rest := by
  cases rest with
  | nil => simp [dangling?]
  | cons next rest => simp [dangling?]

/-- What taking the parts one by one asks of each part and of what follows it. -/
structure Taken (whole fraction exponent rest : List Char) : Prop where
  wholeTaken : whole = [] ∧ (fraction ++ (exponent ++ rest)).head? = some '.' ∨
    IsWhole whole ∧ Halts Char.isDigit (fraction ++ (exponent ++ rest))
  fractionTaken : fraction = [] ∧ (exponent ++ rest).head? ≠ some '.' ∨
    IsFraction fraction ∧ Halts Char.isDigit (exponent ++ rest)
  exponentTaken : exponent = [] ∧ Halts marksExponent rest ∨
    IsExponent exponent ∧ Halts Char.isDigit rest
  free : Halts (fun c => c == '.' || !exponent.isEmpty && startsName c) rest

namespace Taken

variable {whole fraction exponent rest : List Char}

theorem hasParts (taken : Taken whole fraction exponent rest) :
    HasParts whole fraction exponent := by
  obtain ⟨wholeTaken, fractionTaken, exponentTaken, -⟩ := taken
  refine ⟨wholeTaken.imp And.left And.left, fractionTaken.imp And.left And.left, ?_,
    exponentTaken.imp And.left And.left⟩
  -- Where no whole number is taken a point comes next, and then a fraction is.
  rcases wholeTaken with ⟨rfl, point⟩ | ⟨isWhole, -⟩
  · right
    rintro rfl
    rcases fractionTaken with ⟨-, noPoint⟩ | ⟨⟨digits, same, -⟩, -⟩
    · exact noPoint point
    · cases same
  · left
    rintro rfl
    rcases isWhole with same | ⟨digits, -⟩
    · cases same
    · exact digits.1 rfl

/-- Digits end at what follows, whichever part is the last. -/
theorem halts_isDigit (taken : Taken whole fraction exponent rest) :
    Halts Char.isDigit rest := by
  obtain ⟨wholeTaken, fractionTaken, exponentTaken, free⟩ := taken
  rcases exponentTaken with ⟨rfl, -⟩ | ⟨-, halts⟩
  · rcases fractionTaken with ⟨rfl, -⟩ | ⟨-, halts⟩
    · rcases wholeTaken with ⟨-, point⟩ | ⟨-, halts⟩
      · -- Nothing at all was taken, and a point is left dangling.
        obtain ⟨after, rfl⟩ := List.head?_eq_some_iff.mp point
        simp at free
      · exact halts
    · exact halts
  · exact halts

theorem halts_marksExponent (taken : Taken whole fraction exponent rest) :
    Halts marksExponent rest := by
  rcases taken.exponentTaken with ⟨-, halts⟩ | ⟨⟨mark, sign, digits, rfl, -⟩, -⟩
  · exact halts
  · -- A mark is a letter, and letters cannot follow an exponent.
    apply taken.free.mono
    intro c free
    by_contra marks
    have name := startsName_of_marksExponent (by simpa using marks)
    simp [name] at free

end Taken

/-- What taking the parts asks comes to the grammar and a condition on what follows them all. -/
theorem taken_iff {whole fraction exponent rest : List Char} :
    Taken whole fraction exponent rest ↔
      HasParts whole fraction exponent ∧ Halts (runsInto (!exponent.isEmpty)) rest := by
  constructor
  · intro taken
    exact ⟨taken.hasParts, halts_runsInto_iff.mpr
      ⟨taken.halts_isDigit, taken.halts_marksExponent, taken.free⟩⟩
  · rintro ⟨⟨isWhole, isFraction, nonempty, isExponent⟩, halts⟩
    have further := halts_of_exponent isExponent halts
    have noDigit : Halts Char.isDigit (exponent ++ rest) :=
      further.mono fun c free => (Bool.or_eq_false_iff.mp free).1
    obtain ⟨restNoDigit, restNoMark, free⟩ := halts_runsInto_iff.mp halts
    refine ⟨?_, ?_, ?_, free⟩
    · rcases isWhole with rfl | isWhole
      · obtain ⟨digits, rfl, -⟩ := isFraction.resolve_left (nonempty.resolve_left (by simp))
        simp
      · right
        refine ⟨isWhole, ?_⟩
        rcases isFraction with rfl | ⟨digits, rfl, -⟩
        · exact noDigit
        · simp
    · rcases isFraction with rfl | isFraction
      · left
        refine ⟨rfl, ?_⟩
        intro point
        obtain ⟨after, same⟩ := List.head?_eq_some_iff.mp point
        simp [same] at further
      · exact .inr ⟨isFraction, noDigit⟩
    · rcases isExponent with rfl | isExponent
      · exact .inl ⟨rfl, restNoMark⟩
      · exact .inr ⟨isExponent, restNoDigit⟩

theorem marksExponent_of_isDigit {c : Char} (digit : c.isDigit = true) :
    marksExponent c = false := by
  by_contra marks
  simp only [marksExponent, Bool.not_eq_false, Bool.or_eq_true, beq_iff_eq] at marks
  rcases marks with rfl | rfl <;> cases digit

theorem IsDigits.hasExponent {text : List Char} (digits : IsDigits text) :
    hasExponent text = false := by
  simp only [Literal.hasExponent, List.any_eq_false, Bool.not_eq_true]
  exact fun c member => marksExponent_of_isDigit (digits.2 c member)

/-- The exponent is where a numeral has a mark. -/
theorem hasExponent_of_parts {whole fraction exponent : List Char}
    (parts : HasParts whole fraction exponent) :
    hasExponent (whole ++ fraction ++ exponent) = !exponent.isEmpty := by
  obtain ⟨isWhole, isFraction, -, isExponent⟩ := parts
  have noWhole : whole.any marksExponent = false := by
    rcases isWhole with rfl | rfl | ⟨digits, -⟩
    · rfl
    · rfl
    · exact digits.hasExponent
  have noFraction : fraction.any marksExponent = false := by
    rcases isFraction with rfl | ⟨digits, rfl, isDigits⟩
    · rfl
    · rw [List.any_cons]
      exact isDigits.hasExponent
  rw [hasExponent, List.any_append, List.any_append, noWhole, noFraction]
  rcases isExponent with rfl | ⟨mark, sign, digits, rfl, marks, -⟩
  · rfl
  · simp [marks]

theorem takeParts_eq_ok {text whole fraction exponent rest : List Char} :
    takeParts text = .ok (whole, fraction, exponent, rest) ↔
      ∃ afterWhole afterFraction, takeWhole text = .ok (whole, afterWhole) ∧
        takeFraction whole.length afterWhole = .ok (fraction, afterFraction) ∧
        takeExponent (whole.length + fraction.length) afterFraction = .ok (exponent, rest) := by
  constructor
  · intro taken
    unfold takeParts at taken
    split at taken
    · cases taken
    next wholeTaken =>
      split at taken
      · cases taken
      next fractionTaken =>
        split at taken
        · cases taken
        next exponentTaken =>
          cases taken
          exact ⟨_, _, wholeTaken, fractionTaken, exponentTaken⟩
  · rintro ⟨afterWhole, afterFraction, wholeTaken, fractionTaken, exponentTaken⟩
    simp [takeParts, wholeTaken, fractionTaken, exponentTaken]

/-- Taking the parts, with nothing left dangling, is recognizing them. -/
theorem takeParts_iff {text whole fraction exponent rest : List Char} :
    takeParts text = .ok (whole, fraction, exponent, rest) ∧
        dangling? (!exponent.isEmpty) rest = none ↔
      text = whole ++ fraction ++ exponent ++ rest ∧ HasParts whole fraction exponent ∧
        Halts (runsInto (!exponent.isEmpty)) rest := by
  simp only [takeParts_eq_ok, takeWhole_eq_ok, takeFraction_eq_ok, takeExponent_eq_ok,
    dangling?_eq_none, ← taken_iff]
  constructor
  · rintro ⟨⟨_, _, ⟨rfl, wholeTaken⟩, ⟨rfl, fractionTaken⟩, rfl, exponentTaken⟩, free⟩
    exact ⟨by simp, wholeTaken, fractionTaken, exponentTaken, free⟩
  · rintro ⟨rfl, wholeTaken, fractionTaken, exponentTaken, free⟩
    exact ⟨⟨_, _, ⟨by simp, wholeTaken⟩, ⟨rfl, fractionTaken⟩, rfl, exponentTaken⟩, free⟩

theorem HasParts.exists_startsNumeral {whole fraction exponent : List Char}
    (parts : HasParts whole fraction exponent) : ∃ first rest,
      whole ++ fraction ++ exponent = first :: rest ∧ startsNumeral first = true := by
  obtain ⟨isWhole, isFraction, nonempty, -⟩ := parts
  rcases isWhole with rfl | rfl | ⟨digits, -⟩
  · obtain ⟨digits, rfl, -⟩ := isFraction.resolve_left (nonempty.resolve_left (by simp))
    exact ⟨'.', _, rfl, rfl⟩
  · exact ⟨'0', _, rfl, rfl⟩
  · obtain ⟨first, others, rfl⟩ := List.exists_cons_of_ne_nil digits.1
    exact ⟨first, _, rfl, by simp [startsNumeral, isDigit_of_isDigits digits]⟩

theorem exists_startsNumeral {text : List Char} (literal : IsLiteral text) :
    ∃ first rest, text = first :: rest ∧ startsNumeral first = true := by
  obtain ⟨⟨whole, fraction, exponent, rfl, parts⟩, -⟩ := literal
  exact parts.exists_startsNumeral

/-- A numeral is taken if it stands in front and runs into nothing. -/
theorem take_eq_ok {text literal rest : List Char} :
    take text = .ok (literal, rest) ↔
      text = literal ++ rest ∧ IsLiteral literal ∧ Halts (runsInto (hasExponent literal)) rest := by
  constructor
  · intro taken
    unfold take at taken
    split at taken
    · cases taken
    next whole fraction exponent left partsTaken =>
      dsimp only at taken
      split at taken
      · cases taken
      next free =>
        split at taken
        next finite =>
          cases taken
          obtain ⟨rfl, parts, halts⟩ := takeParts_iff.mp ⟨partsTaken, free⟩
          refine ⟨rfl, ⟨⟨_, _, _, rfl, parts⟩, finite⟩, ?_⟩
          rw [hasExponent_of_parts parts]
          exact halts
        · cases taken
  · rintro ⟨rfl, ⟨⟨whole, fraction, exponent, rfl, parts⟩, finite⟩, halts⟩
    rw [hasExponent_of_parts parts] at halts
    obtain ⟨partsTaken, free⟩ := takeParts_iff.mpr ⟨rfl, parts, halts⟩
    simp only [take, partsTaken, free, finite, if_true]

end Literal

end LinearSystem
