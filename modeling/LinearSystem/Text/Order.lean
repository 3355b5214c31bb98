/-!
The order of texts by code points, which is also the order of their UTF-8 bytes.
-/
namespace LinearSystem.Text

/-- Whether a text comes before another or is equal to it: the first code point that differs
decides, and a text comes before those that go on after it. -/
def precedes : List Char → List Char → Bool
  | [], _ => true
  | _ :: _, [] => false
  | a :: first, b :: second => if a = b then precedes first second else a.toNat < b.toNat

/-- Items in ascending order of their names. -/
def sortByName {α : Type} (items : List (String × α)) : List (String × α) :=
  items.mergeSort fun first second => precedes first.1.toList second.1.toList

end LinearSystem.Text
