import LinearSystem.Token.Basic
import LinearSystem.Token.Literal
/-!
Lexemes: the texts that a source is made of, wherever they stand in it. Reading takes the longest
lexeme at the front of a text and returns it with the rest (`read_append`: together they are the
text; `read_ne_nil`: the lexeme is not empty), or refuses it, naming the character at fault.
-/
namespace LinearSystem

/-- A kind and the text it was read from. -/
structure Lexeme where
  kind : Kind
  text : List Char
  deriving DecidableEq, Repr

namespace Lexeme

/-- The kind of a character that is a lexeme by itself, where nothing longer stands. -/
def symbol? : Char → Option Kind
  | '+' => some .plus
  | '-' => some .minus
  | '*' => some .times
  | ',' => some .comma
  | '=' => some (.relation .equal)
  | '≤' => some (.relation .atMost)
  | '≥' => some (.relation .atLeast)
  | _ => none

/-- Reads the lexeme that starts with a character and goes on in the text after it. -/
def read (first : Char) (rest : List Char) : Except Refusal (Lexeme × List Char) :=
  match first, rest with
  -- The operators of two characters come first: the longest lexeme counts.
  | '=', '=' :: rest => .ok (⟨.relation .equal, ['=', '=']⟩, rest)
  | '<', '=' :: rest => .ok (⟨.relation .atMost, ['<', '=']⟩, rest)
  | '>', '=' :: rest => .ok (⟨.relation .atLeast, ['>', '=']⟩, rest)
  | '<', _ => .error ⟨0, .lessThan⟩
  | '>', _ => .error ⟨0, .greaterThan⟩
  | first, rest =>
    match symbol? first with
    | some kind => .ok (⟨kind, [first]⟩, rest)
    | none =>
      if Text.startsNumeral first then
        (Literal.take (first :: rest)).map fun (text, rest) => (⟨.coefficient, text⟩, rest)
      else if Text.startsName first then
        .ok (⟨.name, first :: rest.takeWhile Text.continuesName⟩,
          rest.dropWhile Text.continuesName)
      else .error ⟨0, .invalidCharacter first⟩

/-! ### Nothing is lost -/

theorem read_append {first : Char} {text after : List Char} {lexeme : Lexeme}
    (success : read first text = .ok (lexeme, after)) : lexeme.text ++ after = first :: text := by
  unfold read at success
  split at success
  · cases success; rfl
  · cases success; rfl
  · cases success; rfl
  · cases success
  · cases success
  · split at success
    · cases success; rfl
    · split at success
      · cases literal : Literal.take (first :: text) with
        | error refusal => rw [literal] at success; cases success
        | ok part =>
          rw [literal] at success
          cases success
          exact Literal.take_append literal
      · split at success
        · cases success
          simp [List.takeWhile_append_dropWhile]
        · cases success

theorem read_ne_nil {first : Char} {text after : List Char} {lexeme : Lexeme}
    (success : read first text = .ok (lexeme, after)) : lexeme.text ≠ [] := by
  unfold read at success
  split at success
  · cases success; simp
  · cases success; simp
  · cases success; simp
  · cases success
  · cases success
  · split at success
    · cases success; simp
    · split at success
      · cases literal : Literal.take (first :: text) with
        | error refusal => rw [literal] at success; cases success
        | ok part =>
          rw [literal] at success
          cases success
          exact Literal.take_ne_nil literal
      · split at success
        · cases success; simp
        · cases success

/-- Reading makes progress. -/
theorem read_length_lt {first : Char} {text after : List Char} {lexeme : Lexeme}
    (success : read first text = .ok (lexeme, after)) : after.length < text.length + 1 := by
  have whole := congrArg List.length (read_append success)
  have nonempty := List.length_pos_iff.mpr (read_ne_nil success)
  simp only [List.length_append, List.length_cons] at whole
  omega

end Lexeme

end LinearSystem
