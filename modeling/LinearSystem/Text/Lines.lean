/-!
The lines of a text as a report quotes them: each ends at a line feed, a carriage return directly
before the line feed belongs to the line's end, and a text that ends in a line feed has no further
empty line.
-/
namespace LinearSystem.Text

/-- Splits a text into its lines, without their ends. -/
def lines : List Char → List (List Char)
  | [] => []
  | '\r' :: '\n' :: rest => [] :: lines rest
  | '\n' :: rest => [] :: lines rest
  | c :: rest =>
    match lines rest with
    | [] => [[c]]
    | line :: others => (c :: line) :: others

/-- The line of a given number, counted from one; a line that does not exist is empty. -/
def lineNumbered (text : String) (number : Nat) : String :=
  String.ofList ((lines text.toList)[number - 1]?.getD [])

end LinearSystem.Text
