/-!
Places in a source text. A `Location` is what a reader is told: a line and a column, counted from
one, in characters. A `Cursor` also knows the place as a byte offset.
-/
namespace LinearSystem

/-- A line and a column, both counted from one; columns count characters. -/
structure Location where
  line : Nat
  column : Nat
  deriving DecidableEq, Repr

/-- Written `line:column`. -/
def Location.render (location : Location) : String :=
  toString location.line ++ ":" ++ toString location.column

/-- The number of bytes that a text takes in UTF-8. -/
def utf8Length (text : List Char) : Nat := text.foldr (fun c bytes => c.utf8Size + bytes) 0

theorem utf8Length_append (first second : List Char) :
    utf8Length (first ++ second) = utf8Length first + utf8Length second := by
  induction first with
  | nil => simp [utf8Length]
  | cons c rest ih =>
    simp only [utf8Length, List.cons_append, List.foldr_cons] at ih ⊢
    omega

/-- A place in the source: the bytes before it, and its line and column. -/
structure Cursor where
  offset : Nat
  location : Location
  deriving DecidableEq, Repr

namespace Cursor

/-- The beginning of every source. -/
def start : Cursor := ⟨0, ⟨1, 1⟩⟩

/-- The place after a text that holds no line end. -/
def past (cursor : Cursor) (text : List Char) : Cursor :=
  { offset := cursor.offset + utf8Length text
    location := { cursor.location with column := cursor.location.column + text.length } }

/-- The place after a line end of so many bytes. -/
def nextLine (cursor : Cursor) (bytes : Nat) : Cursor :=
  { offset := cursor.offset + bytes
    location := { line := cursor.location.line + 1, column := 1 } }

@[simp] theorem past_nil (cursor : Cursor) : cursor.past [] = cursor := by
  simp [past, utf8Length]

theorem past_append (cursor : Cursor) (first second : List Char) :
    cursor.past (first ++ second) = (cursor.past first).past second := by
  simp [past, utf8Length_append, Nat.add_assoc]

end Cursor

end LinearSystem
