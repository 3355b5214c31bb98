import LinearSystem.Proofs.Equation.Comparison
import LinearSystem.Proofs.Equation.Naming
import LinearSystem.Proofs.Lexical.Commas
/-!
Items written with layout between them.

What an item is read as does not depend on where it was read first: with layout after it, a lexeme
runs into nothing. So items that are written with any layout between them, and perhaps around them,
are read back as they are (`Rendering.readsAs`). Neither the layout nor which of the operators of a
relation is written makes a difference to what a source states (`Rendering.parsesAlike`).
-/
namespace LinearSystem

open Text

/-- Some source that can be read has the item between its ends. -/
def Occurs (item : Kind × String) : Prop :=
  (item.1 ≠ .startOfInput ∧ item.1 ≠ .endOfInput) ∧
    ∃ source chain, Chain.ofSource source = .ok chain ∧ item ∈ chain.items

/-- Layout in front of items and after each of them. Only in front of the first and after the last
it may be empty. -/
structure Rendering (items : List (Kind × String)) where
  lead : List Char
  gaps : List (List Char)
  count : gaps.length = items.length
  layout : ∀ gap ∈ lead :: gaps, ∀ c ∈ gap, isLayout c = true
  apart : ∀ gap ∈ gaps.dropLast, gap ≠ []

/-- The texts of the items and the layout in turn. -/
def Rendering.source {items : List (Kind × String)} (rendering : Rendering items) : String :=
  String.ofList (rendering.lead ++
    (List.zipWith (fun item gap => item.2.toList ++ gap) items rendering.gaps).flatten)

/-- The operators that state a relation. -/
def Relation.operators : Relation → List String
  | equal => ["=", "=="]
  | atMost => ["<=", "≤"]
  | atLeast => [">=", "≥"]

/-- Items are equal, or operators of one relation. -/
def Exchanged (item item' : Kind × String) : Prop :=
  item = item' ∨ ∃ relation, item.1 = .relation relation ∧ item'.1 = .relation relation ∧
    item.2 ∈ relation.operators ∧ item'.2 ∈ relation.operators

/-- Refusals by the rules, with one message, at whatever places. -/
structure Diagnostic.SameRule (refusal refusal' : Diagnostic) : Prop where
  stage : refusal.stage = .grammar
  stage' : refusal'.stage = .grammar
  message : refusal.message = refusal'.message

/-! ### Reading back -/

theorem Occurs.spells {item : Kind × String} (occurs : Occurs item) :
    Lexeme.Spells item.1 item.2.toList := by
  obtain ⟨⟨noStart, noEnd⟩, source, chain, read, member⟩ := occurs
  rcases Chain.spells_items read item member with starts | ends | spelled
  · exact absurd starts noStart
  · exact absurd ends noEnd
  · exact spelled

theorem Lexeme.spells_of_mem_operators {relation : Relation} {operator : String}
    (member : operator ∈ relation.operators) :
    Spells (.relation relation) operator.toList := by
  cases relation with
  | equal | atMost | atLeast =>
    simp only [Relation.operators, List.mem_cons, List.not_mem_nil, or_false] at member
    rcases member with rfl | rfl <;> simp [Spells]

theorem Exchanged.sameMeaning {item item' : Kind × String} (exchanged : Exchanged item item') :
    SameMeaning item item' := by
  rcases exchanged with rfl | ⟨relation, kind, kind', -⟩
  · exact ⟨rfl, fun _ => rfl⟩
  · exact ⟨kind.trans kind'.symm, by simp [kind]⟩

theorem Exchanged.spells {item item' : Kind × String} (exchanged : Exchanged item item')
    (spelled : Lexeme.Spells item.1 item.2.toList) : Lexeme.Spells item'.1 item'.2.toList := by
  rcases exchanged with rfl | ⟨relation, -, kind, -, operator⟩
  · exact spelled
  · rw [kind]
    exact Lexeme.spells_of_mem_operators operator

namespace Rendering

/-- The lexemes of items, each with the layout after it. -/
def spaced (items : List (Kind × String)) (gaps : List (List Char)) : Spaced :=
  List.zipWith (fun item gap => (⟨item.1, item.2.toList⟩, gap)) items gaps

theorem text_spaced (items : List (Kind × String)) (gaps : List (List Char)) :
    (spaced items gaps).text =
      (List.zipWith (fun item gap => item.2.toList ++ gap) items gaps).flatten := by
  induction items generalizing gaps with
  | nil => rfl
  | cons item rest ih =>
    cases gaps with
    | nil => rfl
    | cons gap others =>
      have later := ih others
      simp only [spaced] at later ⊢
      simp [Spaced.text, later]

theorem items_spaced {items : List (Kind × String)} {gaps : List (List Char)}
    (count : gaps.length = items.length) : (spaced items gaps).items = items := by
  induction items generalizing gaps with
  | nil => rfl
  | cons item rest ih =>
    cases gaps with
    | nil => cases count
    | cons gap others =>
      have later := ih (Nat.succ.inj count)
      simp only [spaced, Spaced.items] at later ⊢
      simp [later]

theorem wellFormed_spaced {items : List (Kind × String)} {gaps : List (List Char)}
    (spelled : ∀ item ∈ items, Lexeme.Spells item.1 item.2.toList)
    (layout : ∀ gap ∈ gaps, ∀ c ∈ gap, isLayout c = true)
    (apart : ∀ gap ∈ gaps.dropLast, gap ≠ []) : (spaced items gaps).WellFormed := by
  induction items generalizing gaps with
  | nil => trivial
  | cons item rest ih =>
    cases gaps with
    | nil => trivial
    | cons gap others =>
      obtain ⟨here, laterSpelled⟩ := List.forall_mem_cons.mp spelled
      obtain ⟨isLayout, laterLayout⟩ := List.forall_mem_cons.mp layout
      refine ⟨here, isLayout, ?_, ih laterSpelled laterLayout ?_⟩
      · -- Only after the last item may there be no layout, and nothing else is after it.
        intro empty
        cases others with
        | nil => simp [Spaced.text]
        | cons next others => exact absurd empty (apart gap (by simp))
      · intro later member
        apply apart
        cases others with
        | nil => cases member
        | cons next others => exact List.mem_cons_of_mem gap member

variable {items items' : List (Kind × String)}

/-- What is written with layout between it is read back. -/
theorem readsAs (rendering : Rendering items)
    (spelled : ∀ item ∈ items, Lexeme.Spells item.1 item.2.toList) :
    ReadsAs rendering.source.toList items := by
  obtain ⟨leadLayout, layout⟩ := List.forall_mem_cons.mp rendering.layout
  refine ⟨rendering.lead, spaced items rendering.gaps, leadLayout,
    wellFormed_spaced spelled layout rendering.apart, ?_, (items_spaced rendering.count).symm⟩
  rw [source, String.toList_ofList, text_spaced]

/-! ### Layout and operators mean nothing -/

/-- Layout and operators of one relation make no difference to what is parsed, and for a source that
is refused none to the message. -/
theorem parsesAlike (rendering : Rendering items) (other : Rendering items')
    (spelled : ∀ item ∈ items, Lexeme.Spells item.1 item.2.toList)
    (exchanged : List.Forall₂ Exchanged items items') :
    Source.ParsesAlike Diagnostic.SameRule rendering.source other.source := by
  have spelled' : ∀ item ∈ items', Lexeme.Spells item.1 item.2.toList := by
    intro item' member
    obtain ⟨item, among, same⟩ := exists_of_forall₂ exchanged.flip member
    exact Exchanged.spells same (spelled item among)
  obtain ⟨chain, read, listed⟩ := (rendering.readsAs spelled).exists_chain
  obtain ⟨chain', read', listed'⟩ := (other.readsAs spelled').exists_chain
  have same : List.Forall₂ Exchanged chain.items chain'.items := by
    rw [listed, listed']
    exact .cons (.inl rfl) (List.rel_append exchanged (.cons (.inl rfl) .nil))
  -- Nothing is refused by its spelling, and the rules see no difference.
  have both : Corresponds (fun _ _ => False) (fun chain chain' => List.Forall₂
      (fun token token' => Exchanged (token.kind, token.value) (token'.kind, token'.value))
      chain.toList chain'.toList) (Chain.ofSource rendering.source)
      (Chain.ofSource other.source) := by
    rw [read, read']
    exact .ok (Chain.forall₂_items.mp same)
  apply Source.parsesAlike_of_chain
  apply (Source.chain_corresponds (fun _ _ same => (Exchanged.sameMeaning same).1) both
    (fun _ _ => False.elim) ?_).imp (fun _ _ same => same) ?_
  · rintro _ _ ⟨violation, -⟩
    exact ⟨rfl, rfl, rfl⟩
  · exact fun _ _ tokens => (Chain.forall₂_items.mpr tokens).imp fun _ _ => Exchanged.sameMeaning

/-- Items that occur in sources, written with any layout between them, are read back as they are,
between the two ends. Two such texts of the same items, or of items in which operators of one
relation are exchanged, are parsed to the same equations, or both are refused by the rules and with
the same message. -/
theorem read_back (rendering : Rendering items) (other : Rendering items')
    (occur : ∀ item ∈ items, Occurs item) (exchanged : List.Forall₂ Exchanged items items') :
    (∃ chain, Chain.ofSource rendering.source = .ok chain ∧
      chain.items = (.startOfInput, "") :: (items ++ [(.endOfInput, "")])) ∧
    Source.ParsesAlike Diagnostic.SameRule rendering.source other.source := by
  have spelled : ∀ item ∈ items, Lexeme.Spells item.1 item.2.toList :=
    fun item member => (occur item member).spells
  exact ⟨(rendering.readsAs spelled).exists_chain, rendering.parsesAlike other spelled exchanged⟩

/-- The lexemes of `2x <= 4`. -/
def twoXItems : List (Kind × String) :=
  [(.coefficient, "2"), (.name, "x"), (.relation .atMost, "<="), (.coefficient, "4")]

/-- The lexemes of `2x ≤ 4`. -/
def twoXItems' : List (Kind × String) :=
  [(.coefficient, "2"), (.name, "x"), (.relation .atMost, "≤"), (.coefficient, "4")]

def spread : Rendering twoXItems where
  lead := ['\n']
  gaps := [['\t'], [' ', ' '], ['\uFEFF'], []]
  count := rfl
  layout := by simp [isLayout, isBlank]
  apart := by simp

def spread' : Rendering twoXItems' where
  lead := []
  gaps := [[' '], ['\r', '\n'], [' '], [' ']]
  count := rfl
  layout := by simp [isLayout, isBlank]
  apart := by simp

/-- The lexemes of `2x <= 4` are read back from two lines, and these state what they state with
another operator and other layout. -/
theorem read_back_spread :
    (∀ item ∈ twoXItems, Occurs item) ∧ List.Forall₂ Exchanged twoXItems twoXItems' ∧
    (∃ chain, Chain.ofSource "\n2\tx  <=\uFEFF4" = .ok chain ∧
      chain.items = (.startOfInput, "") :: (twoXItems ++ [(.endOfInput, "")])) ∧
    Source.ParsesAlike Diagnostic.SameRule "\n2\tx  <=\uFEFF4" "2 x\r\n≤ 4 " := by
  have occur : ∀ item ∈ twoXItems, Occurs item := by
    have read : (Chain.ofSource "2x <= 4").map Chain.items =
        .ok ((.startOfInput, "") :: (twoXItems ++ [(.endOfInput, "")])) := by decide +kernel
    obtain ⟨chain, lexed, listed⟩ := Chain.exists_ok_of_map read
    have kinds : ∀ item ∈ twoXItems, item.1 ≠ .startOfInput ∧ item.1 ≠ .endOfInput := by decide
    exact fun item member => ⟨kinds item member, _, chain, lexed, by simp [listed, member]⟩
  have exchanged : List.Forall₂ Exchanged twoXItems twoXItems' :=
    .cons (.inl rfl) (.cons (.inl rfl)
      (.cons (.inr ⟨.atMost, rfl, rfl, by decide, by decide⟩) (.cons (.inl rfl) .nil)))
  exact ⟨occur, exchanged, spread.read_back spread' occur exchanged⟩

end Rendering

end LinearSystem
