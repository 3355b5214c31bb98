import LinearSystem.Equation.Builder
import LinearSystem.Proofs.Grammar.Acceptance
/-!
The rules of the grammar and the building of equations agree.

Both take the tokens of a chain one by one and each keeps its own state. On an accepted chain the
rules have seen a variable exactly while the builder holds one, and a relational operator exactly
while the builder holds one (`Agrees`). So no variable and no relation is ever overwritten, every
comma completes an equation and so does the end of the source, unless the source is empty.
-/
namespace LinearSystem

open Grammar

variable {α : Type}

namespace Piece

/-- The kind of token that a piece is read from. -/
def kind : Piece α → Kind
  | startOfInput => .startOfInput
  | endOfInput => .endOfInput
  | plus => .plus
  | minus => .minus
  | times => .times
  | relation r => .relation r
  | coefficient _ => .coefficient
  | name _ => .name
  | comma => .comma

@[simp] theorem kind_ofToken (read : String → Option α) (table : SymbolTable) (kind : Kind)
    (text : String) : (ofToken read table kind text).1.kind = kind := by
  cases kind <;> rfl

theorem ofTokens_append (read : String → Option α) (table : SymbolTable)
    (first second : List (Kind × String)) :
    ofTokens read table (first ++ second) =
      ((ofTokens read table first).1 ++ (ofTokens read (ofTokens read table first).2 second).1,
        (ofTokens read (ofTokens read table first).2 second).2) := by
  induction first generalizing table with
  | nil => rfl
  | cons item rest ih => simp [ofTokens, ih]

theorem map_kind_ofTokens (read : String → Option α) (table : SymbolTable)
    (items : List (Kind × String)) :
    (ofTokens read table items).1.map kind = items.map Prod.fst := by
  induction items generalizing table with
  | nil => rfl
  | cons item rest ih => simp [ofTokens, ih]

end Piece

/-- The equation that a reply brings. -/
def Reply.equation? : Reply α → Option (Equation α)
  | more => none
  | answer equation => equation

namespace Builder

/-- What the rules have seen is what the builder holds. -/
structure Agrees (seen : Seen) (previous : Kind) (builder : Builder α) : Prop where
  symbol : seen.hasVariable = builder.symbol.isSome
  relation : seen.hasRelation = builder.relation.isSome
  atStart : builder.atStart = true ↔ previous = .startOfInput

variable [OfNat α 0]

theorem agrees_fresh : Agrees .nothing .startOfInput (fresh true : Builder α) :=
  ⟨rfl, rfl, by simp [fresh]⟩

/-! ### What closing a term keeps -/

variable [Add α] [Sub α] [Neg α] [BEq α]

theorem closeTerm_keeps (builder : Builder α) :
    builder.closeTerm.relation = builder.relation ∧
      builder.closeTerm.atStart = builder.atStart := by
  unfold closeTerm
  split
  · exact ⟨rfl, rfl⟩
  · split
    · exact ⟨rfl, rfl⟩
    · dsimp only
      split <;> exact ⟨rfl, rfl⟩

@[simp] theorem relation_closeTerm (builder : Builder α) :
    builder.closeTerm.relation = builder.relation := builder.closeTerm_keeps.1

@[simp] theorem atStart_closeTerm (builder : Builder α) :
    builder.closeTerm.atStart = builder.atStart := builder.closeTerm_keeps.2

@[simp] theorem isSome_finish (builder : Builder α) :
    builder.finish.isSome = builder.relation.isSome := by
  simp [finish]

@[simp] theorem map_relation_finish (builder : Builder α) :
    builder.finish.map Equation.relation = builder.relation := by
  simp [finish, Function.comp_def]

/-! ### Runs of a builder -/

variable [OfNat α 1] [Mul α]

/-- A builder after it has taken pieces, whatever it has replied to them. -/
def after (builder : Builder α) (pieces : List (Piece α)) : Builder α :=
  pieces.foldl (fun builder piece => (builder.step piece).1) builder

theorem after_append (builder : Builder α) (first second : List (Piece α)) :
    builder.after (first ++ second) = (builder.after first).after second :=
  List.foldl_append

theorem step_comma (builder : Builder α) : (builder.step .comma).1 = fresh false := by
  simp only [step]
  split <;> rfl

theorem equation?_step (builder : Builder α) (piece : Piece α) :
    (builder.step piece).2.equation? =
      match piece with
      | .comma => builder.finish
      | .endOfInput => if builder.atStart then none else builder.finish
      | _ => none := by
  cases piece with
  | startOfInput | plus | minus | times | relation | name => rfl
  | coefficient value => cases value <;> rfl
  | comma =>
    simp only [step]
    split
    next finished => simp [Reply.equation?, finished]
    next unfinished => simp [Reply.equation?, unfinished]
  | endOfInput =>
    simp only [step]
    split <;> rfl

/-- A piece whose kind the rules accept leaves the builder as the rules expect it. -/
theorem agrees_step {seen next : Seen} {previous : Kind} {builder : Builder α} {piece : Piece α}
    (agrees : Agrees seen previous builder) (stepped : seen.step previous piece.kind = .ok next)
    (more : piece.kind ≠ .endOfInput) : Agrees next piece.kind (builder.step piece).1 := by
  obtain ⟨symbol, relation, atStart⟩ := agrees
  -- That the step was taken says what has been seen, so both states are at hand for each piece.
  obtain rfl := Seen.eq_next_of_step stepped
  cases piece with
  | endOfInput => exact absurd rfl more
  | startOfInput => exact ⟨symbol, relation, by simp [step, Piece.kind]⟩
  | coefficient value =>
    cases value <;> exact ⟨symbol, relation, by simp [step, multiply, Piece.kind]⟩
  | plus | minus =>
    exact ⟨rfl, by simpa [Piece.kind, Seen.next, step, openTerm] using relation,
      by simp [step, openTerm, Piece.kind]⟩
  | times => exact ⟨symbol, relation, by simp [step, Piece.kind]⟩
  | relation operator => exact ⟨rfl, rfl, by simp [step, openTerm, Piece.kind]⟩
  | name operand => exact ⟨rfl, relation, by simp [step, withSymbol, Piece.kind]⟩
  | comma =>
    rw [step_comma]
    exact ⟨rfl, rfl, by simp [fresh, Piece.kind]⟩

theorem agrees_run {seen next : Seen} {previous : Kind} {builder : Builder α}
    {pieces : List (Piece α)} (agrees : Agrees seen previous builder)
    (ran : seen.run previous (pieces.map Piece.kind) = .ok next)
    (more : ∀ piece ∈ pieces, piece.kind ≠ .endOfInput) :
    Agrees next ((pieces.map Piece.kind).getLastD previous) (builder.after pieces) := by
  induction pieces generalizing seen previous builder with
  | nil =>
    cases ran
    exact agrees
  | cons piece rest ih =>
    obtain ⟨middle, stepped, ran⟩ := Seen.run_cons_eq_ok.mp ran
    have here := agrees_step agrees stepped (more piece (by simp))
    rw [List.map_cons, List.getLastD_cons]
    exact ih here ran fun other member => more other (by simp [member])

/-- An accepted piece completes an equation if it is a comma or the end of a source that holds
something. -/
theorem isSome_reply {seen next : Seen} {previous : Kind} {builder : Builder α}
    (piece : Piece α) (agrees : Agrees seen previous builder)
    (stepped : seen.step previous piece.kind = .ok next) :
    (builder.step piece).2.equation?.isSome = true ↔
      piece.kind = .comma ∨ piece.kind = .endOfInput ∧ previous ≠ .startOfInput := by
  rw [equation?_step]
  cases piece with
  | startOfInput | plus | minus | times | relation | coefficient | name => simp [Piece.kind]
  | comma =>
    have related := Seen.hasRelation_of_close (.inl rfl) stepped
    simpa [Piece.kind, agrees.relation] using related
  | endOfInput =>
    -- The builder tells by its own flag whether the end follows directly on the start.
    by_cases started : previous = .startOfInput
    · simp [agrees.atStart.mpr started, Piece.kind, started]
    · have atStart : builder.atStart = false := by simpa [started] using agrees.atStart
      have related := Seen.hasRelation_of_close (.inr ⟨rfl, started⟩) stepped
      simpa [atStart, Piece.kind, started, agrees.relation] using related

theorem kind_of_answer_none {builder next : Builder α} {piece : Piece α}
    (stepped : builder.step piece = (next, .answer none)) : piece.kind = .endOfInput := by
  cases piece with
  | endOfInput => rfl
  | startOfInput | plus | minus | times | relation | name => simp [step] at stepped
  | coefficient value => cases value <;> simp [step] at stepped
  | comma =>
    simp only [step] at stepped
    split at stepped <;> simp at stepped

theorem equations_cons (builder : Builder α) {piece : Piece α} {rest : List (Piece α)}
    (reached : piece.kind ≠ .endOfInput ∨ rest = []) :
    builder.equations (piece :: rest) =
      (builder.step piece).2.equation?.toList ++ (builder.step piece).1.equations rest := by
  rw [equations]
  split
  next stepped => simp [stepped, Reply.equation?]
  next stepped => simp [stepped, Reply.equation?]
  -- An answer without an equation ends the collecting, and only the end gives one.
  next stepped =>
    rcases reached with more | rfl
    · exact absurd (kind_of_answer_none stepped) more
    · simp [stepped, Reply.equation?, equations]

/-- Between the start of the source and its end, equations are collected one for a comma, and one
more unless nothing is read. -/
theorem length_equations {seen next : Seen} {previous : Kind} {builder : Builder α}
    (pieces : List (Piece α)) (agrees : Agrees seen previous builder)
    (ran : seen.run previous (pieces.map Piece.kind ++ [.endOfInput]) = .ok next)
    (more : ∀ piece ∈ pieces, piece.kind ≠ .endOfInput) :
    (builder.equations (pieces ++ [.endOfInput])).length =
      (pieces.map Piece.kind).count .comma +
        if (pieces.map Piece.kind).getLastD previous = .startOfInput then 0 else 1 := by
  induction pieces generalizing seen previous builder with
  | nil =>
    -- The end completes an equation unless it stands directly after the start of the source.
    obtain ⟨middle, stepped, -⟩ := Seen.run_cons_eq_ok.mp ran
    have emits := isSome_reply .endOfInput agrees stepped
    rw [List.nil_append, equations_cons builder (.inr rfl), equations, List.append_nil,
      Option.length_toList]
    by_cases started : previous = .startOfInput <;> simp [emits, started, Piece.kind]
  | cons piece rest ih =>
    obtain ⟨middle, stepped, ran⟩ := Seen.run_cons_eq_ok.mp ran
    have here := agrees_step agrees stepped (more piece (by simp))
    have later := ih here ran fun other member => more other (by simp [member])
    have emits : (builder.step piece).2.equation?.isSome = true ↔ piece.kind = .comma := by
      simpa [more piece (by simp)] using isSome_reply piece agrees stepped
    -- A comma brings the equation that it is counted for; any other piece brings none.
    rw [List.cons_append, equations_cons builder (.inl (more piece (by simp))),
      List.length_append, Option.length_toList, later, List.map_cons, List.getLastD_cons,
      List.count_cons]
    by_cases comma : piece.kind = .comma
    · simp only [emits, comma, if_true, beq_self_eq_true]
      omega
    · simp [emits, comma]

end Builder

/-! ### Accepted chains -/

namespace Chain

def itemsOf (tokens : List Token) : List (Kind × String) :=
  tokens.map fun token => (token.kind, token.value)

theorem map_kind_ofTokens_itemsOf (read : String → Option α) (table : SymbolTable)
    (tokens : List Token) :
    (Piece.ofTokens read table (itemsOf tokens)).1.map Piece.kind = tokens.map Token.kind := by
  simp [Piece.map_kind_ofTokens, itemsOf]

theorem Integral.ne_end_of_piece {chain : Chain} (integral : chain.Integral)
    (read : String → Option α) (table : SymbolTable) {before after : List Token} {token : Token}
    (listed : chain.toList = before ++ token :: after) :
    ∀ piece ∈ (Piece.ofTokens read table (itemsOf before)).1, piece.kind ≠ .endOfInput := by
  intro piece member ended
  have among := List.mem_map_of_mem (f := Piece.kind) member
  rw [map_kind_ofTokens_itemsOf] at among
  obtain ⟨earlier, member, same⟩ := List.mem_map.mp among
  exact integral.ne_end_of_before listed earlier member (same.trans ended)

variable [OfNat α 0] [OfNat α 1] [Add α] [Sub α] [Mul α] [Neg α] [BEq α]

/-- Token by token through an accepted chain, the rules and the builder agree. -/
theorem agrees_before (read : String → Option α) (table : SymbolTable) {chain : Chain}
    {before after : List Token} {token : Token} (accepted : chain.check = .ok ())
    (listed : chain.toList = before ++ token :: after) :
    ∃ seen next, before.foldlM chain.checkToken .nothing = .ok seen ∧
      seen.step ((before.map Token.kind).getLastD .startOfInput) token.kind = .ok next ∧
      Builder.Agrees seen ((before.map Token.kind).getLastD .startOfInput)
        ((Builder.fresh true).after (Piece.ofTokens read table (itemsOf before)).1) := by
  have integral := integral_of_check accepted
  -- The rules accept the whole chain, so they accept its front and then the token after it.
  obtain ⟨final, ran⟩ := accepts_of_check accepted
  rw [listed, List.map_append] at ran
  obtain ⟨seen, beforeRan, ran⟩ := Seen.run_append_eq_ok.mp ran
  obtain ⟨next, stepped, -⟩ := Seen.run_cons_eq_ok.mp ran
  have kinds := map_kind_ofTokens_itemsOf read table before
  refine ⟨seen, next, integral.foldlM_checkToken listed beforeRan, stepped, ?_⟩
  rw [← kinds] at beforeRan ⊢
  exact Builder.agrees_run Builder.agrees_fresh beforeRan
    (integral.ne_end_of_piece read table listed)

theorem Integral.exists_last {chain : Chain} (integral : chain.Integral) :
    ∃ front last, chain.toList = front ++ [last] ∧ last.kind = .endOfInput ∧
      front.map Token.kind = .startOfInput :: chain.innerKinds := by
  obtain ⟨first, between, last, listed, starts, ends, -⟩ := integral.exists_between
  refine ⟨first :: between, last, listed, ends, ?_⟩
  rw [innerKinds_eq listed, List.map_cons, starts]

/-- An accepted chain states one equation more than it has commas, or none if it is empty. -/
theorem length_equations (read : String → Option α) (table : SymbolTable) {chain : Chain}
    (accepted : chain.check = .ok ()) :
    (chain.equations read table).1.length =
      if chain.innerKinds = [] then 0 else chain.innerKinds.count .comma + 1 := by
  have integral := integral_of_check accepted
  obtain ⟨-, inner⟩ := integral.kinds_eq
  obtain ⟨front, last, listed, ends, frontKinds⟩ := integral.exists_last
  obtain ⟨final, ran⟩ := accepts_of_check accepted
  have kinds := map_kind_ofTokens_itemsOf read table front
  have pieces : (Piece.ofTokens read table chain.items).1 =
      (Piece.ofTokens read table (itemsOf front)).1 ++ [.endOfInput] := by
    have items : chain.items = itemsOf front ++ [(last.kind, last.value)] := by
      simp [items, itemsOf, listed]
    simp [items, Piece.ofTokens_append, Piece.ofTokens, ends, Piece.ofToken]
  rw [listed, List.map_append, List.map_singleton, ends, ← kinds] at ran
  have length := Builder.length_equations _ (Builder.agrees_fresh (α := α)) ran
    (integral.ne_end_of_piece read table listed)
  simp only [equations, pieces, length, kinds, frontKinds]
  -- The last kind before the end is the start of the source only if nothing is between them.
  rcases List.eq_nil_or_concat chain.innerKinds with empty | ⟨others, previous, ended⟩
  · simp [empty]
  · have further := (inner previous (by simp [ended])).1
    simp [ended, further, List.getLastD_eq_getLast?, List.getLast?_cons, List.count_cons]

/-- Token by token through an accepted chain, the rules and the builder agree: a variable has been
seen of the term exactly if one is pending, and a relational operator of the equation exactly if one
is set. Neither is ever replaced. An equation is completed by every comma and by the end of the
source, unless that follows directly on the start; so there is one more than there are commas, or
none in an empty source. -/
theorem builder_agrees (read : String → Option α) (table : SymbolTable) (chain : Chain)
    (accepted : chain.check = .ok ()) :
    (∀ before token after, chain.toList = before ++ token :: after →
      let earlier := Piece.ofTokens read table (itemsOf before)
      let builder := (Builder.fresh true).after earlier.1
      let piece := (Piece.ofToken read earlier.2 token.kind token.value).1
      ∃ seen, before.foldlM chain.checkToken .nothing = .ok seen ∧
        seen.hasVariable = builder.symbol.isSome ∧ seen.hasRelation = builder.relation.isSome ∧
        (token.kind = .name → builder.symbol = none) ∧
        (token.kind.isRelation = true → builder.relation = none) ∧
        ((builder.step piece).2.equation?.isSome = true ↔ token.kind = .comma ∨
          token.kind = .endOfInput ∧
            (before.getLast?.map Token.kind) ≠ some .startOfInput)) ∧
    (chain.equations read table).1.length =
      if chain.innerKinds = [] then 0 else chain.innerKinds.count .comma + 1 := by
  constructor
  · intro before token after listed earlier builder piece
    obtain ⟨seen, next, checked, stepped, agrees⟩ := agrees_before read table accepted listed
    refine ⟨seen, checked, agrees.symbol, agrees.relation, ?_, ?_, ?_⟩
    · intro name
      rw [name] at stepped
      simpa [agrees.symbol] using Seen.unseen_of_name stepped
    · intro relational
      obtain ⟨relation, same⟩ := Kind.isRelation_iff.mp relational
      rw [same] at stepped
      simpa [agrees.relation] using Seen.unseen_of_relation stepped
    · have emits := Builder.isSome_reply piece agrees (by simpa [piece] using stepped)
      rw [emits]
      rcases List.eq_nil_or_concat before with rfl | ⟨front, previous, rfl⟩
      · -- The first token of a chain is not its end.
        have placed := (integral_of_check accepted).placed (get?_of_listed listed)
        have started := placed.2.2.2.1.mpr rfl
        simp [piece, started]
      · simp [piece]
  · exact length_equations read table accepted

/-- At the comma of a chain with the kinds of `x = 1, y = 2` the builder holds a relation and no
variable, and of this chain there are two equations. -/
theorem builder_agrees_at_comma :
    let chain := [Kind.startOfInput, .name, .relation .equal, .coefficient, .comma, .name,
        .relation .equal, .coefficient, .endOfInput].foldl
      (fun chain kind => chain.append (.unlinked kind [] .start .start)) empty
    let read := fun _ => some (1 : Int)
    let builder := (Builder.fresh true).after
      (Piece.ofTokens read .empty (itemsOf (chain.toList.take 4))).1
    chain.check = .ok () ∧ builder.symbol = none ∧ builder.relation.isSome = true ∧
      (builder.step .comma).2.equation?.isSome = true ∧
      (chain.equations read .empty).1.length = 2 := by
  intro chain read builder
  have accepted : chain.check = .ok () := by rfl
  obtain ⟨run, length⟩ := builder_agrees read .empty chain accepted
  obtain ⟨seen, checked, symbol, relation, -, -, emits⟩ :=
    run (chain.toList.take 4) ⟨.comma, "", 0, 0, ⟨1, 1⟩, 4, some 3, some 5⟩
      (chain.toList.drop 5) rfl
  have state : seen = ⟨false, true⟩ := (Except.ok.inj checked).symm
  subst state
  refine ⟨accepted, ?_, relation.symm, emits.mpr (.inl rfl), length⟩
  simpa using symbol.symm

end Chain

end LinearSystem
