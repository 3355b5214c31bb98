import LinearSystem.Text.CharClass
import LinearSystem.Text.Unprintable
/-!
Quoted text: double quotes around the text, a backslash before a quote or a backslash, short
escapes for the null character, tab, line feed and carriage return, and the code point in braces
for every other unprintable character. All else stands for itself, single quotes included.
-/
namespace LinearSystem.Text

/-- What one character becomes between the quotes. -/
def quoteChar (c : Char) : String :=
  match c with
  | '\x00' => "\\0"
  | '\t' => "\\t"
  | '\n' => "\\n"
  | '\r' => "\\r"
  | '"' => "\\\""
  | '\\' => "\\\\"
  | _ =>
    if isUnprintable c then "\\u\x7b" ++ hexDigits c.toNat ++ "\x7d" else String.singleton c

/-- A text between double quotes. -/
def quote (text : String) : String :=
  "\"" ++ String.join (text.toList.map quoteChar) ++ "\""

end LinearSystem.Text
