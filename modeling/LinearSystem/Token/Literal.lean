import LinearSystem.Binary64
import LinearSystem.Token.Refusal
/-!
Numerals as they stand in a source. Taking one off the front of a text returns it with the rest
(`take_append`: together they are the text; `take_ne_nil`: the numeral is not empty), or refuses it,
naming the character at fault.

A numeral has a whole part without a leading zero or a fraction or both, and perhaps an exponent.
Some texts are refused although a shorter numeral stands in front of them: a second point, and a
letter directly after an exponent. A numeral that rounds to no finite number is refused as a whole.
-/
namespace LinearSystem

/-- A text taken off the front of another, and what is left. -/
abbrev Taken := Except Refusal (List Char × List Char)

namespace Literal

/-- Takes digits, of which there must be one; `seen` characters stand before them. -/
def takeDigits (seen : Nat) (text : List Char) : Taken :=
  if (text.takeWhile Char.isDigit).isEmpty then .error ⟨seen, .expectedDigit text.head?⟩
  else .ok (text.takeWhile Char.isDigit, text.dropWhile Char.isDigit)

/-- Takes the digits before the point, which may be left out; after a zero comes no digit. -/
def takeWhole : List Char → Taken
  | '.' :: rest => .ok ([], '.' :: rest)
  | '0' :: next :: rest =>
    if next.isDigit then .error ⟨1, .digitAfterZero next⟩ else .ok (['0'], next :: rest)
  | text => takeDigits 0 text

/-- Takes the point and the digits after it, if a point comes next. -/
def takeFraction (seen : Nat) : List Char → Taken
  | '.' :: rest => (takeDigits (seen + 1) rest).map fun (digits, rest) => ('.' :: digits, rest)
  | text => .ok ([], text)

/-- Takes an optional sign. -/
def takeSign : List Char → List Char × List Char
  | '+' :: rest => (['+'], rest)
  | '-' :: rest => (['-'], rest)
  | text => ([], text)

/-- Whether a character announces an exponent. -/
def marksExponent (c : Char) : Bool := c == 'e' || c == 'E'

/-- Takes an exponent, if its mark comes next. -/
def takeExponent (seen : Nat) : List Char → Taken
  | [] => .ok ([], [])
  | mark :: rest =>
    if marksExponent mark then
      let (sign, rest) := takeSign rest
      (takeDigits (seen + 1 + sign.length) rest).map fun (digits, rest) =>
        (mark :: (sign ++ digits), rest)
    else .ok ([], mark :: rest)

/-- The three parts of a numeral at the front of a text, and what is left. -/
def takeParts (text : List Char) : Except Refusal (List Char × List Char × List Char × List Char) :=
  match takeWhole text with
  | .error refusal => .error refusal
  | .ok (whole, rest) =>
    match takeFraction whole.length rest with
    | .error refusal => .error refusal
    | .ok (fraction, rest) =>
      match takeExponent (whole.length + fraction.length) rest with
      | .error refusal => .error refusal
      | .ok (exponent, rest) => .ok (whole, fraction, exponent, rest)

/-- The next character, where it cannot stand directly after a numeral. -/
def dangling? (hasExponent : Bool) : List Char → Option Char
  | [] => none
  | next :: _ =>
    if next == '.' || hasExponent && Text.startsName next then some next else none

/-- Whether the text is a numeral that rounds to a finite number. -/
def isFinite (text : List Char) : Bool :=
  match Numeral.ofText? text with
  | some (.finite _ magnitude) => Binary64.nearest magnitude < Binary64.infinityBits
  | _ => false

/-- Takes a numeral. -/
def take (text : List Char) : Taken :=
  match takeParts text with
  | .error refusal => .error refusal
  | .ok (whole, fraction, exponent, rest) =>
    let literal := whole ++ fraction ++ exponent
    match dangling? (!exponent.isEmpty) rest with
    | some found => .error ⟨literal.length, .danglingCharacter found⟩
    | none =>
      -- The place of a number that is too large is its first character.
      if isFinite literal then .ok (literal, rest)
      else .error ⟨0, .outOfRange (String.ofList literal)⟩

/-! ### Nothing is lost -/

theorem takeDigits_append {seen : Nat} {text digits rest : List Char}
    (taken : takeDigits seen text = .ok (digits, rest)) : digits ++ rest = text := by
  simp only [takeDigits] at taken
  split at taken
  · cases taken
  · cases taken
    exact List.takeWhile_append_dropWhile

theorem takeDigits_ne_nil {seen : Nat} {text digits rest : List Char}
    (taken : takeDigits seen text = .ok (digits, rest)) : digits ≠ [] := by
  simp only [takeDigits] at taken
  split at taken
  · cases taken
  next nonempty =>
    cases taken
    simpa using nonempty

theorem takeWhole_append {text whole rest : List Char}
    (taken : takeWhole text = .ok (whole, rest)) : whole ++ rest = text := by
  unfold takeWhole at taken
  split at taken
  · cases taken; rfl
  · split at taken
    · cases taken
    · cases taken; rfl
  · exact takeDigits_append taken

theorem takeFraction_append {seen : Nat} {text fraction rest : List Char}
    (taken : takeFraction seen text = .ok (fraction, rest)) : fraction ++ rest = text := by
  unfold takeFraction at taken
  split at taken
  next after =>
    cases digits : takeDigits (seen + 1) after with
    | error refusal => rw [digits] at taken; cases taken
    | ok part =>
      rw [digits] at taken
      cases taken
      simp [takeDigits_append digits]
  · cases taken; rfl

theorem takeSign_append (text : List Char) : (takeSign text).1 ++ (takeSign text).2 = text := by
  unfold takeSign
  split <;> rfl

theorem takeExponent_append {seen : Nat} {text exponent rest : List Char}
    (taken : takeExponent seen text = .ok (exponent, rest)) : exponent ++ rest = text := by
  unfold takeExponent at taken
  split at taken
  · cases taken; rfl
  next mark after =>
    split at taken
    · cases digits : takeDigits (seen + 1 + (takeSign after).1.length) (takeSign after).2 with
      | error refusal => simp only [digits] at taken; cases taken
      | ok part =>
        simp only [digits] at taken
        cases taken
        simp [takeDigits_append digits, takeSign_append]
    · cases taken; rfl

theorem takeParts_append {text whole fraction exponent rest : List Char}
    (taken : takeParts text = .ok (whole, fraction, exponent, rest)) :
    whole ++ fraction ++ exponent ++ rest = text := by
  unfold takeParts at taken
  split at taken
  · cases taken
  next wholeTaken =>
    split at taken
    · cases taken
    next fractionTaken =>
      split at taken
      · cases taken
      next exponentTaken =>
        cases taken
        rw [List.append_assoc, takeExponent_append exponentTaken, List.append_assoc,
          takeFraction_append fractionTaken, takeWhole_append wholeTaken]

/-- Digits are written before the point or after it. -/
theorem takeParts_ne_nil {text whole fraction exponent rest : List Char}
    (taken : takeParts text = .ok (whole, fraction, exponent, rest)) :
    whole ++ fraction ≠ [] := by
  unfold takeParts at taken
  split at taken
  · cases taken
  next wholeTaken =>
    split at taken
    · cases taken
    next fractionTaken =>
      split at taken
      · cases taken
      · cases taken
        unfold takeWhole at wholeTaken
        split at wholeTaken
        next after =>
          cases wholeTaken
          cases digits : takeDigits (0 + 1) after with
          | error refusal =>
            simp only [takeFraction, List.length_nil, digits, Except.map] at fractionTaken
            cases fractionTaken
          | ok part =>
            simp only [takeFraction, List.length_nil, digits, Except.map] at fractionTaken
            cases fractionTaken
            simp
        · split at wholeTaken
          · cases wholeTaken
          · cases wholeTaken; simp
        · have := takeDigits_ne_nil wholeTaken
          simp [this]

theorem take_append {text literal rest : List Char} (taken : take text = .ok (literal, rest)) :
    literal ++ rest = text := by
  unfold take at taken
  split at taken
  · cases taken
  next parts =>
    simp only at taken
    split at taken
    · cases taken
    · split at taken
      · cases taken; exact takeParts_append parts
      · cases taken

theorem take_ne_nil {text literal rest : List Char} (taken : take text = .ok (literal, rest)) :
    literal ≠ [] := by
  unfold take at taken
  split at taken
  · cases taken
  next parts =>
    simp only at taken
    split at taken
    · cases taken
    · split at taken
      · cases taken
        intro empty
        exact takeParts_ne_nil parts (List.append_eq_nil_iff.mp empty).1
      · cases taken

end Literal

end LinearSystem
