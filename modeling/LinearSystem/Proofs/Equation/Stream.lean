import LinearSystem.Proofs.Equation.Naming
/-!
Equations that are asked for one by one.

An `EquationStream` is a builder with the pieces that it has not taken yet, in any order,
grammatical or not. A call takes pieces up to an answer, so calls and pieces do not keep step; still
a stream comes to each of the pieces ahead of it in some call (`EquationStream.comesTo_append`).
What follows a comma is answered as it would be without anything in front of it
(`EquationStream.answers_past_comma`): a comma leaves a builder that holds nothing, and whether such
a builder is at the start of a source does not show in what it does (`Builder.step_fresh`).
-/
namespace LinearSystem

variable {α : Type}

/-- A builder and the pieces that are ahead of it. -/
structure EquationStream (α : Type) where
  builder : Builder α
  pieces : List (Piece α)

variable [OfNat α 0] [OfNat α 1] [Add α] [Sub α] [Mul α] [Neg α] [BEq α]

namespace EquationStream

/-! ### Calls -/

/-- The stream of tokens before any of them is taken, their names numbered in order. -/
def ofItems (read : String → Option α) (table : SymbolTable) (items : List (Kind × String)) :
    EquationStream α :=
  ⟨.fresh true, (Piece.ofTokens read table items).1⟩

/-- The answer to a call, and the stream after it. -/
def next (stream : EquationStream α) : Option (Equation α) × EquationStream α :=
  let (equation, builder, rest) := stream.builder.next stream.pieces
  (equation, ⟨builder, rest⟩)

/-- The answers to so many calls. -/
def answers (stream : EquationStream α) (calls : Nat) : List (Option (Equation α)) :=
  stream.builder.answers stream.pieces calls

/-- The stream after so many calls. -/
def afterCalls (stream : EquationStream α) : Nat → EquationStream α
  | 0 => stream
  | calls + 1 => stream.next.2.afterCalls calls

theorem answers_succ (stream : EquationStream α) (calls : Nat) :
    stream.answers (calls + 1) = stream.next.1 :: stream.next.2.answers calls := rfl

theorem afterCalls_add (stream : EquationStream α) (first second : Nat) :
    stream.afterCalls (first + second) = (stream.afterCalls first).afterCalls second := by
  induction first generalizing stream with
  | zero => rw [Nat.zero_add, afterCalls]
  | succ first ih => rw [Nat.succ_add, afterCalls, afterCalls, ih]

theorem next_of_more {builder builder' : Builder α} {piece : Piece α}
    (stepped : builder.step piece = (builder', .more)) (rest : List (Piece α)) :
    next ⟨builder, piece :: rest⟩ = next ⟨builder', rest⟩ := by
  simp only [next, Builder.next, stepped]

theorem next_of_answer {builder builder' : Builder α} {piece : Piece α}
    {equation : Option (Equation α)} (stepped : builder.step piece = (builder', .answer equation))
    (rest : List (Piece α)) : next ⟨builder, piece :: rest⟩ = (equation, ⟨builder', rest⟩) := by
  simp only [next, Builder.next, stepped]

/-- A call leaves what it has not taken. -/
theorem pieces_next_suffix (builder : Builder α) (pieces : List (Piece α)) :
    (next ⟨builder, pieces⟩).2.pieces <:+ pieces := by
  induction pieces generalizing builder with
  | nil => exact List.suffix_refl []
  | cons piece rest ih =>
    cases stepped : builder.step piece with
    | mk builder' reply =>
      cases reply with
      | more =>
        rw [next_of_more stepped]
        exact (ih builder').trans (List.suffix_cons piece rest)
      | answer equation =>
        rw [next_of_answer stepped]
        exact List.suffix_cons piece rest

theorem answers_nil (builder : Builder α) (calls : Nat) :
    answers ⟨builder, []⟩ calls = List.replicate calls none := by
  induction calls with
  | zero => rfl
  | succ calls ih => exact congrArg (List.cons none) ih

theorem answers_congr {stream other : EquationStream α} (same : stream.next = other.next)
    (calls : Nat) : stream.answers calls = other.answers calls := by
  cases calls with
  | zero => rfl
  | succ calls => rw [answers_succ, answers_succ, same]

theorem answers_fresh (atStart : Bool) (pieces : List (Piece α)) (calls : Nat) :
    answers ⟨.fresh atStart, pieces⟩ calls = answers ⟨.fresh false, pieces⟩ calls := by
  cases pieces with
  | nil => rw [answers_nil, answers_nil]
  | cons piece rest =>
    apply answers_congr
    simp only [next, Builder.next, Builder.step_fresh atStart piece]

/-! ### What is ahead of a stream -/

/-- One of the calls of a stream goes on as a later stream: before that call the pieces of the later
stream are ahead, and the call is answered and leaves the same. -/
def ComesTo (stream later : EquationStream α) : Prop :=
  ∃ calls, later.pieces <:+ (stream.afterCalls calls).pieces ∧
    (stream.afterCalls calls).next = later.next

theorem ComesTo.refl (stream : EquationStream α) : ComesTo stream stream :=
  ⟨0, List.suffix_refl _, rfl⟩

theorem ComesTo.trans {first second third : EquationStream α} (one : ComesTo first second)
    (two : ComesTo second third) : ComesTo first third := by
  obtain ⟨earlier, ahead, goesOn⟩ := one
  obtain ⟨calls, ahead', goesOn'⟩ := two
  -- Without a call in between, one and the same call comes to the second stream and to the third.
  cases calls with
  | zero => exact ⟨earlier, ahead'.trans ahead, goesOn.trans goesOn'⟩
  | succ calls =>
    have later : first.afterCalls (earlier + (calls + 1)) = second.afterCalls (calls + 1) := by
      rw [afterCalls_add, afterCalls, afterCalls, goesOn]
    exact ⟨earlier + (calls + 1), by rwa [later], by rwa [later]⟩

/-- A call that takes a piece goes on after it, or it is answered and the next call does. -/
theorem comesTo_step (builder : Builder α) (piece : Piece α) (rest : List (Piece α)) :
    ComesTo ⟨builder, piece :: rest⟩ ⟨(builder.step piece).1, rest⟩ := by
  cases stepped : builder.step piece with
  | mk builder' reply =>
    cases reply with
    | more => exact ⟨0, List.suffix_cons piece rest, next_of_more stepped rest⟩
    | answer equation =>
      have left : afterCalls ⟨builder, piece :: rest⟩ 1 = ⟨builder', rest⟩ := by
        rw [afterCalls, afterCalls, next_of_answer stepped]
      refine ⟨1, ?_, by rw [left]⟩
      simp only [left, List.suffix_refl]

/-- Whatever is answered in between, a stream comes to all that is ahead of it. -/
theorem comesTo_append (builder : Builder α) (before rest : List (Piece α)) :
    ComesTo ⟨builder, before ++ rest⟩ ⟨builder.after before, rest⟩ := by
  induction before generalizing builder with
  | nil => exact .refl _
  | cons piece others ih => exact (comesTo_step builder piece _).trans (ih _)

/-! ### Commas -/

theorem next_comma_of_finish {builder : Builder α} {equation : Equation α}
    (finished : builder.finish = some equation) (rest : List (Piece α)) :
    next ⟨builder, .comma :: rest⟩ = (some equation, ⟨.fresh false, rest⟩) :=
  next_of_answer (by simp only [Builder.step, finished]) rest

theorem next_comma_of_unfinished {builder : Builder α} (unfinished : builder.finish = none)
    (rest : List (Piece α)) :
    next ⟨builder, .comma :: rest⟩ = next ⟨.fresh false, rest⟩ :=
  next_of_more (by simp only [Builder.step, unfinished]) rest

/-- Some call takes a comma. If the comma completes an equation, the call is answered by it and the
calls after it go on as with a builder that holds nothing; otherwise this call already does. -/
theorem exists_past_comma (builder : Builder α) (before rest : List (Piece α)) :
    let completed := (builder.after before).finish
    ∃ earlier,
      let now := afterCalls ⟨builder, before ++ .comma :: rest⟩ earlier
      .comma :: rest <:+ now.pieces ∧ now.next.2.pieces <:+ rest ∧
        (∀ equation, completed = some equation → now.next.1 = some equation) ∧
        ∀ calls, (if completed.isSome then now.next.2 else now).answers calls =
          answers ⟨.fresh true, rest⟩ calls := by
  intro completed
  obtain ⟨earlier, ahead, goesOn⟩ := comesTo_append builder before (.comma :: rest)
  refine ⟨earlier, ahead, ?_⟩
  cases finished : completed with
  | some equation =>
    rw [next_comma_of_finish finished] at goesOn
    simp only [goesOn, Option.isSome_some, if_true, answers_fresh true rest, Option.some.injEq]
    exact ⟨List.suffix_refl rest, fun _ same => same, fun _ => trivial⟩
  | none =>
    rw [next_comma_of_unfinished finished] at goesOn
    refine ⟨?_, by simp, ?_⟩
    · rw [goesOn]
      exact pieces_next_suffix _ rest
    · intro calls
      rw [Option.isSome_none, if_neg Bool.false_ne_true, answers_congr goesOn,
        answers_fresh true rest]

end EquationStream

/-! ### Other tables -/

/-- Replies that bring the same equations over two tables. -/
inductive Reply.Alike (table other : SymbolTable) : Reply α → Reply α → Prop where
  | more : Alike table other .more .more
  | answer {equation equation' : Option (Equation α)}
      (same : Option.Rel (Equation.Alike table other) equation equation') :
      Alike table other (.answer equation) (.answer equation')

/-- One token is replied to alike. -/
theorem Builder.Alike.reply {table other : SymbolTable} {builder builder' : Builder α}
    (alike : Builder.Alike table other builder builder') (read : String → Option α)
    (item : Kind × String) :
    Reply.Alike table other (builder.step (Piece.ofItem read table item)).2
      (builder'.step (Piece.ofItem read other item)).2 := by
  obtain ⟨kind, text⟩ := item
  cases kind with
  | startOfInput | plus | minus | times | relation | name => exact .more
  | coefficient =>
    cases value : read text <;> simp only [Piece.ofItem, Piece.ofToken, value] <;> exact .more
  | endOfInput =>
    simp only [Piece.ofItem, Piece.ofToken, Builder.step, alike.atStart]
    split
    · exact .answer .none
    · exact .answer alike.finish
  | comma =>
    have finished := alike.finish
    simp only [Piece.ofItem, Piece.ofToken, Builder.step]
    generalize builder.finish = made at finished ⊢
    generalize builder'.finish = made' at finished ⊢
    cases finished with
    | none => exact .more
    | some same => exact .answer (.some same)

namespace EquationStream

/-- Streams with the same tokens ahead, read with two tables that know their names, whose builders
are alike. -/
structure Alike (read : String → Option α) (table other : SymbolTable)
    (stream stream' : EquationStream α) : Prop where
  builder : Builder.Alike table other stream.builder stream'.builder
  pieces : ∃ items : List (Kind × String),
    (∀ text, (.name, text) ∈ items → text ∈ table.names ∧ text ∈ other.names) ∧
      stream.pieces = items.map (Piece.ofItem read table) ∧
      stream'.pieces = items.map (Piece.ofItem read other)

variable {read : String → Option α} {table other : SymbolTable} {stream stream' : EquationStream α}

/-- Such streams answer a call alike, and are such streams after it. -/
theorem Alike.next (alike : Alike read table other stream stream') :
    Option.Rel (Equation.Alike table other) stream.next.1 stream'.next.1 ∧
      Alike read table other stream.next.2 stream'.next.2 := by
  obtain ⟨builder, pieces⟩ := stream
  obtain ⟨builder', pieces'⟩ := stream'
  obtain ⟨builders, items, known, rfl, rfl⟩ := alike
  simp only at builders
  -- The call goes through the tokens up to an answer; up to there the builders stay alike.
  induction items generalizing builder builder' with
  | nil => exact ⟨.none, builders, [], known, rfl, rfl⟩
  | cons item rest ih =>
    have here : item.1 = .name → item.2 ∈ table.names ∧ item.2 ∈ other.names :=
      fun isName => known item.2 (by simp [← isName])
    have later : ∀ text, (.name, text) ∈ rest → text ∈ table.names ∧ text ∈ other.names :=
      fun text member => known text (List.mem_cons_of_mem item member)
    have builders' := builders.step read here
    have replies := builders.reply read item
    rw [List.map_cons, List.map_cons]
    cases stepped : builder.step (Piece.ofItem read table item) with
    | mk after reply =>
      cases stepped' : builder'.step (Piece.ofItem read other item) with
      | mk after' reply' =>
        rw [stepped, stepped'] at builders' replies
        cases replies with
        | more =>
          rw [next_of_more stepped, next_of_more stepped']
          exact ih after after' later builders'
        | answer same =>
          rw [next_of_answer stepped, next_of_answer stepped']
          exact ⟨same, builders', rest, later, rfl, rfl⟩

theorem Alike.answers (alike : Alike read table other stream stream') (calls : Nat) :
    List.Forall₂ (Option.Rel (Equation.Alike table other)) (stream.answers calls)
      (stream'.answers calls) := by
  induction calls generalizing stream stream' with
  | zero => exact .nil
  | succ calls ih =>
    obtain ⟨here, later⟩ := alike.next
    exact .cons here (ih later)

omit [OfNat α 1] [Add α] [Sub α] [Mul α] [Neg α] [BEq α] in
/-- With any two tables the tokens of a stream are answered alike. -/
theorem alike_ofItems (read : String → Option α) (table other : SymbolTable)
    (items : List (Kind × String)) :
    Alike read (Piece.ofTokens read table items).2 (Piece.ofTokens read other items).2
      (ofItems read table items) (ofItems read other items) := by
  refine ⟨Builder.alike_fresh true, items, ?_, ?_, ?_⟩
  · exact fun text member => ⟨Piece.mem_ofTokens read member, Piece.mem_ofTokens read member⟩
  · exact Piece.ofTokens_eq_map read items (SymbolTable.extends_refl _)
  · exact Piece.ofTokens_eq_map read items (SymbolTable.extends_refl _)

/-- Nothing passes a comma. Of any tokens with a comma among them, some call takes the comma. If the
comma completes an equation then this call is answered by it, and the calls after it are answered as
those of a stream that begins behind the comma; if it completes none then already this call is
answered so. The answers, with equations and without, are the same if the names of both streams have
come to stand in one table, whichever was read first, and with any other table they are the same but
for the numbers of names. -/
theorem answers_past_comma (read : String → Option α) (table : SymbolTable)
    (before after : List (Kind × String)) (text : String) :
    let items := before ++ (.comma, text) :: after
    let atComma := Piece.ofTokens read table before
    let completed := ((Builder.fresh true).after atComma.1).finish
    let behind := (Piece.ofTokens read atComma.2 after).1
    ∃ earlier,
      let now := (ofItems read table items).afterCalls earlier
      let further := if completed.isSome then now.next.2 else now
      .comma :: behind <:+ now.pieces ∧ now.next.2.pieces <:+ behind ∧
        (∀ equation, completed = some equation → now.next.1 = some equation) ∧
        (∀ other final, (Piece.ofTokens read table items).2.Extends final →
          (Piece.ofTokens read other after).2.Extends final →
          ∀ calls, further.answers calls = (ofItems read other after).answers calls) ∧
        ∀ other calls,
          List.Forall₂
            (Option.Rel (Equation.Alike (Piece.ofTokens read table items).2
              (Piece.ofTokens read other after).2))
            (further.answers calls) ((ofItems read other after).answers calls) := by
  intro items atComma completed behind
  have listed : Piece.ofTokens read table items =
      (atComma.1 ++ .comma :: behind, (Piece.ofTokens read atComma.2 after).2) := by
    rw [Piece.ofTokens_append]
    rfl
  have start : ofItems read table items = ⟨.fresh true, atComma.1 ++ .comma :: behind⟩ := by
    rw [ofItems, listed]
  obtain ⟨earlier, ahead, taken, answered, same⟩ :=
    exists_past_comma (.fresh true) atComma.1 behind
  rw [← start] at ahead taken answered same
  refine ⟨earlier, ahead, taken, answered, ?_, ?_⟩
  · intro other final grown grown' calls
    rw [listed] at grown
    -- Both streams read their names from the one table.
    have pieces : behind = (Piece.ofTokens read other after).1 := by
      rw [Piece.ofTokens_eq_map read after grown', ← Piece.ofTokens_eq_map read after grown]
    rw [same, pieces]
    rfl
  · intro other calls
    rw [same, listed]
    exact (alike_ofItems read atComma.2 other after).answers calls

/-- The comma after `x = 1` completes an equation, and then an end of the source is taken as if
nothing were in front of it, and `y >= 1` after that. The tokens behind the comma were read first
here, so that `y` has its number before `x`. -/
theorem answers_past_comma_toEnd :
    let read := fun _ : String => some (1 : Int)
    let before := [(.name, "x"), (.relation .equal, "="), (.coefficient, "1")]
    let after := [(.endOfInput, ""), (.name, "y"), (.relation .atLeast, ">="), (.coefficient, "1"),
      (.endOfInput, "")]
    let items := before ++ (.comma, ",") :: after
    let table := (Piece.ofTokens read .empty after).2
    let final := (Piece.ofTokens read table items).2
    (Piece.ofTokens read table items).2.Extends final ∧
      (Piece.ofTokens read .empty after).2.Extends final ∧
      ∃ earlier,
        let now := (ofItems read table items).afterCalls earlier
        now.next.1.map Equation.relation = some .equal ∧
          (now.next.2.answers 3).map (Option.map Equation.relation) =
            [none, some .atLeast, none] := by
  intro read before after items table final
  have grown : (Piece.ofTokens read .empty after).2.Extends final :=
    Piece.extends_ofTokens read table items
  obtain ⟨earlier, -, -, answered, same, -⟩ := answers_past_comma read table before after ","
  refine ⟨SymbolTable.extends_refl final, grown, earlier, ?_, ?_⟩
  · rw [answered _ rfl]
    rfl
  · have further := same .empty final (SymbolTable.extends_refl final) grown 3
    exact congrArg (List.map (Option.map Equation.relation)) further

end EquationStream

end LinearSystem
