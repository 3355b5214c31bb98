import LinearSystem.Source
import Std.Data.HashMap
/-!
Interning with two structures: an array of the names, which gives the name of a number, and a hash
map from names to numbers. A new name is put into both, under the number of names that there are
already. Numbers have 32 bits.
-/
namespace LinearSystem

/-- The names that have been interned, in order, and the number of each. -/
structure Interner where
  names : Array String
  ids : Std.HashMap String UInt32

namespace Interner

/-- The interner without names. -/
def empty : Interner := ⟨#[], ∅⟩

/-- The number of a name, if it has been interned. -/
def lookup? (interner : Interner) (name : String) : Option UInt32 := interner.ids[name]?

/-- The name of a number, if it has been given out. -/
def name? (interner : Interner) (id : UInt32) : Option String := interner.names[id.toNat]?

/-- The number of a name, which is put into both structures if it is new. -/
def intern (interner : Interner) (name : String) : UInt32 × Interner :=
  match interner.ids[name]? with
  | some id => (id, interner)
  | none =>
    -- The number of names is cut to 32 bits.
    let id := interner.names.size.toUInt32
    (id, { names := interner.names.push name, ids := interner.ids.insert name id })

variable {α : Type}

/-- The piece of a token of some kind and text; only a name needs the interner. -/
def piece (read : String → Option α) (interner : Interner) (kind : Kind) (text : String) :
    Piece α × Interner :=
  match kind with
  | .name =>
    let (id, interner) := interner.intern text
    (.name ⟨id.toNat⟩, interner)
  | kind => ((Piece.ofToken read .empty kind text).1, interner)

/-- The pieces of tokens, their names interned in order. -/
def pieces (read : String → Option α) (interner : Interner) :
    List (Kind × String) → List (Piece α) × Interner
  | [] => ([], interner)
  | (kind, text) :: rest =>
    let (piece, interner) := interner.piece read kind text
    let (pieces, interner) := interner.pieces read rest
    (piece :: pieces, interner)

/-- Reads a source. A refusal leaves the interner as it was. -/
def parse (interner : Interner) (source : String) :
    Except Diagnostic (List (Equation Float)) × Interner :=
  match Source.chain source with
  | .error diagnostic => (.error diagnostic, interner)
  | .ok chain =>
    let (pieces, interner) := interner.pieces Numeral.readFloat? chain.items
    (.ok ((Builder.fresh true).equations pieces), interner)

end Interner

end LinearSystem
