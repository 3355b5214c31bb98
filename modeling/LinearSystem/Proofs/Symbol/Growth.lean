import LinearSystem.Proofs.Equation.Source
import LinearSystem.Proofs.Symbol.Interner
/-!
What parsing does to an interner.

Names are numbered while equations are collected, token by token, and no further than the collecting
goes (`Interner.parseInTurn`). Only the end of a source answers with nothing, so the collecting of a
well-formed chain goes through all of its tokens and comes to the same as numbering every name in
advance (`Interner.parse_eq_inTurn`). So a source adds all of its new names or, if it is refused,
none (`Interner.names_of_parse`).
-/
namespace LinearSystem.Interner

/-! ### Names in turn -/

section

variable {α : Type} [OfNat α 0] [OfNat α 1] [Add α] [Sub α] [Mul α] [Neg α] [BEq α]

/-- The equations up to the first answer that is none. A name is numbered when its token is taken,
and what is not taken is not numbered. -/
def collect (read : String → Option α) (interner : Interner) (builder : Builder α) :
    List (Kind × String) → List (Equation α) × Interner
  | [] => ([], interner)
  | (kind, text) :: rest =>
    let (piece, interner) := interner.piece read kind text
    match builder.step piece with
    | (builder, .more) => collect read interner builder rest
    | (builder, .answer (some equation)) =>
      let (equations, interner) := collect read interner builder rest
      (equation :: equations, interner)
    | (_, .answer none) => ([], interner)

omit [OfNat α 0] [OfNat α 1] [Add α] [Sub α] [Mul α] [Neg α] [BEq α] in
@[simp] theorem kind_piece (read : String → Option α) (interner : Interner) (kind : Kind)
    (text : String) : (interner.piece read kind text).1.kind = kind := by
  cases kind <;> rfl

/-- Where the end of the source comes last, every token is taken. -/
theorem collect_eq (read : String → Option α) (interner : Interner) (builder : Builder α)
    {inner : List (Kind × String)} (more : ∀ item ∈ inner, item.1 ≠ .endOfInput) (last : String) :
    let items := inner ++ [(.endOfInput, last)]
    interner.collect read builder items =
      (builder.equations (interner.pieces read items).1, (interner.pieces read items).2) := by
  intro items
  induction inner generalizing interner builder with
  | nil =>
    simp only [items, List.nil_append, collect, pieces, Builder.equations]
    obtain ⟨next, reply⟩ := builder.step (interner.piece read .endOfInput last).1
    cases reply with
    | more => rfl
    | answer equation => cases equation <;> rfl
  | cons item rest ih =>
    obtain ⟨kind, text⟩ := item
    obtain ⟨notEnd, later⟩ := List.forall_mem_cons.mp more
    have taken (builder : Builder α) := ih (interner.piece read kind text).2 builder later
    simp only [items, List.cons_append, collect, pieces, Builder.equations]
    cases stepped : builder.step (interner.piece read kind text).1 with
    | mk next reply =>
      cases reply with
      | more => exact taken next
      | answer equation =>
        cases equation with
        | some equation => simp only [taken next]
        | none =>
          -- Only the end of the source is answered by nothing.
          have isEnd := Builder.kind_of_answer_none stepped
          rw [kind_piece] at isEnd
          exact absurd isEnd notEnd

end

/-- Reads a source, its names numbered as its equations are collected. -/
def parseInTurn (interner : Interner) (source : String) :
    Except Diagnostic (List (Equation Float)) × Interner :=
  match Source.chain source with
  | .error diagnostic => (.error diagnostic, interner)
  | .ok chain =>
    let (equations, interner) :=
      interner.collect Numeral.readFloat? (Builder.fresh true) chain.items
    (.ok equations, interner)

/-- To number the names in turn comes to the same as to number them in advance. -/
theorem parse_eq_inTurn (interner : Interner) (source : String) :
    interner.parse source = interner.parseInTurn source := by
  unfold parse parseInTurn
  cases read : Source.chain source with
  | error diagnostic => rfl
  | ok chain =>
    obtain ⟨-, accepted⟩ := Source.chain_eq_ok.mp read
    have integral := Chain.integral_of_check accepted
    obtain ⟨first, last, items, -⟩ := Source.exists_inner integral
    have more : ∀ item ∈ (.startOfInput, first) :: chain.items.tail.dropLast,
        item.1 ≠ .endOfInput := by
      rw [List.forall_mem_cons]
      exact ⟨by simp, fun item member => (Source.inner_of_integral integral item member).2⟩
    have collected := interner.collect_eq Numeral.readFloat? (Builder.fresh true) more last
    rw [List.cons_append, ← items] at collected
    simp only [collected]

/-! ### New names -/

/-- A source that is not refused has a chain, and its names are numbered in the order of the
chain. -/
theorem exists_chain_of_parse {interner after : Interner} {source : String}
    {equations : List (Equation Float)} (parsed : interner.parse source = (.ok equations, after)) :
    ∃ chain, Chain.ofSource source = .ok chain ∧ namesOfSource source = namesOf chain.items := by
  unfold parse at parsed
  cases read : Source.chain source with
  | error diagnostic => simp [read] at parsed
  | ok chain => exact ⟨chain, (Source.chain_eq_ok.mp read).1, by simp [namesOfSource, read]⟩

/-- Parsing changes an interner as a whole or not at all. A source that is refused leaves it as it
is. Any other appends those of its names that are new, each once and in the order in which they come
up first, whatever becomes of their terms; no name or number changes. To number the names while the
equations are collected comes to the same. -/
theorem names_of_parse {interner : Interner} {table : SymbolTable}
    (represents : interner.Represents table) (source : String) :
    interner.parse source = interner.parseInTurn source ∧
    (∀ diagnostic after, interner.parse source = (.error diagnostic, after) → after = interner) ∧
    ∀ equations after, interner.parse source = (.ok equations, after) →
      interner.Extends after ∧ ∃ chain, Chain.ofSource source = .ok chain ∧
        after.names.toList = interner.names.toList ++
          ((namesOf chain.items).filter fun name => name ∉ interner.names.toList).eraseDups := by
  refine ⟨interner.parse_eq_inTurn source, ?_, ?_⟩
  · intro diagnostic after refused
    unfold parse at refused
    split at refused
    · cases refused
      rfl
    · cases refused
  · intro equations after parsed
    obtain ⟨chain, read, names⟩ := exists_chain_of_parse parsed
    have grown := represents.parse source
    rw [parsed, parse_eq_internAll, names] at grown
    refine ⟨represents.extends grown (table.extends_internAll _), chain, read, ?_⟩
    rw [grown.names, SymbolTable.names_internAll_append, represents.names]

/-- Of `0x + y <= z` the names `x` and `z` are new where `y` is known, although the term of `x` is
dropped. -/
theorem names_of_zeroTerm : ∃ table,
    let interner := empty.afterCalls [.intern "y"]
    let after := (interner.parse "0x + y <= z").2
    interner.Represents table ∧ interner.Extends after ∧
      after.names.toList = ["y", "x", "z"] := by
  have represents := represents_afterCalls [.intern "y"]
  refine ⟨_, represents, ?_⟩
  have names : (empty.afterCalls [.intern "y"]).names.toList = ["y"] := by
    rw [represents.names, SymbolTable.names_internAll]
    rfl
  have texts : (Source.chain "0x + y <= z").map (fun chain => namesOf chain.items) =
      .ok ["x", "y", "z"] := by decide +kernel
  obtain ⟨chain, lexed, texts⟩ := Chain.exists_ok_of_map texts
  obtain ⟨-, -, accepted⟩ := names_of_parse represents "0x + y <= z"
  simp only [parse, lexed] at accepted ⊢
  obtain ⟨kept, other, read, added⟩ := accepted _ _ rfl
  obtain rfl := Except.ok.inj (read.symm.trans (Source.chain_eq_ok.mp lexed).1)
  refine ⟨kept, ?_⟩
  rw [added, names, texts]
  decide

end LinearSystem.Interner
