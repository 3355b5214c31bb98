/-!
Classes of characters and their spelling in messages.

Only ASCII characters are digits, letters or printable. A place in a text holds an `Option Char`,
where `none` is the end of the text: it belongs to no class (`Option.any` is false of it), and a
message spells it `<EOF>`.
-/
namespace LinearSystem.Text

/-- A numeral starts with a digit, or with the point of an omitted whole part. -/
def startsNumeral (c : Char) : Bool := c.isDigit || c == '.'

/-- A name starts with a letter or an underscore. -/
def startsName (c : Char) : Bool := c.isAlpha || c == '_'

/-- A name goes on with letters, underscores and digits. -/
def continuesName (c : Char) : Bool := startsName c || c.isDigit

/-- From the space to the tilde. -/
def isPrintable (c : Char) : Bool := ' '.toNat ≤ c.toNat && c.toNat ≤ '~'.toNat

/-- Blanks separate lexemes within a line; a byte order mark counts as one anywhere. -/
def isBlank (c : Char) : Bool := c == '\uFEFF' || c == '\t' || c == ' '

/-- The hexadecimal digits of a number, without leading zeros. -/
def hexDigits (n : Nat) : String := String.ofList (Nat.toDigits 16 n)

/-- The hexadecimal digits of a number, with zeros in front to make at least `width`. -/
def paddedHex (width n : Nat) : String :=
  String.ofList (List.leftpad width '0' (Nat.toDigits 16 n))

/-- The spelling of the end of the text. -/
def endSpelling : String := "<EOF>"

/-- Names what stands at a place: a printable character by itself, any other by its code point. -/
def describe : Option Char → String
  | none => endSpelling
  | some c =>
    if isPrintable c then String.singleton c
    else "U+" ++ (paddedHex 4 c.toNat).toUpper

end LinearSystem.Text
