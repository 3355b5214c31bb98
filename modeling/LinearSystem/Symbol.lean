/-!
Symbols: names that have been given a number. A table lists the names in the order in which they
were first interned, and a symbol is a place in that list. Tables only grow, so a symbol keeps its
name.
-/
namespace LinearSystem

/-- A numbered name. -/
structure Symbol where
  id : Nat
  deriving DecidableEq, Repr

/-- The names that have been numbered, in order and without repetition. -/
structure SymbolTable where
  names : List String
  distinct : names.Nodup

namespace SymbolTable

/-- The table without names. -/
def empty : SymbolTable := ⟨[], List.nodup_nil⟩

/-- The symbol of a name, if it has one. -/
def lookup? (table : SymbolTable) (name : String) : Option Symbol :=
  (table.names.idxOf? name).map Symbol.mk

/-- The name of a symbol, if the table has given it out. -/
def name? (table : SymbolTable) (symbol : Symbol) : Option String := table.names[symbol.id]?

/-- The name of a symbol of this table; the empty text for any other. -/
def nameOf (table : SymbolTable) (symbol : Symbol) : String := (table.name? symbol).getD ""

/-- The table with a new name at the end. -/
def push (table : SymbolTable) (name : String) (fresh : name ∉ table.names) : SymbolTable where
  names := table.names ++ [name]
  distinct := List.nodup_append.mpr
    ⟨table.distinct, by simp, fun old member new single same => by simp_all⟩

/-- The symbol of a name, which is numbered if it has none yet. -/
def intern (table : SymbolTable) (name : String) : Symbol × SymbolTable :=
  if known : name ∈ table.names then (⟨table.names.idxOf name⟩, table)
  else (⟨table.names.length⟩, table.push name known)

end SymbolTable

end LinearSystem
