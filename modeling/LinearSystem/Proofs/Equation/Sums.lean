import LinearSystem.Proofs.Equation.Entries
import LinearSystem.Proofs.Equation.Terms
/-!
Building sums up what is written.

Of a builder on one side of an equation, `Builder.ahead` is what it will have entered when the side
is closed: its open term together with the terms that follow. No token of the side changes where
this leads (`Builder.outcome_step`), so a part of an accepted chain leads to all of its
contributions, and its equation is their sum (`Chain.equations_sum_up`).
-/
namespace LinearSystem

open Grammar Items

variable {α : Type}

namespace Items

/-! ### Open terms -/

section

variable [OfNat α 1] [Mul α] (read : String → Option α)

/-- The coefficient of an open term after it has taken a run. Only numbers and names open a term. -/
def absorb (coefficient : Option α) (run : Items) : Option α :=
  if numbers read run = [] ∧ name? run = none then coefficient
  else some ((numbers read run).foldl (· * ·) (coefficient.getD 1))

theorem absorb_nil (coefficient : Option α) : absorb read coefficient [] = coefficient := rfl

theorem absorb_some (value : α) (run : Items) :
    absorb read (some value) run = some ((numbers read run).foldl (· * ·) value) := by
  unfold absorb
  split
  next empty => rw [empty.1]; rfl
  · rfl

theorem absorb_times (coefficient : Option α) (text : String) (run : Items) :
    absorb read coefficient ((.times, text) :: run) = absorb read coefficient run := by
  rw [absorb, numbers_other read (by simp), name?_other (by simp), absorb]

theorem absorb_coefficient (coefficient : Option α) (text : String) (run : Items) :
    absorb read coefficient ((.coefficient, text) :: run) =
      match read text with
      | none => absorb read coefficient run
      | some value => absorb read (some (coefficient.getD 1 * value)) run := by
  rw [absorb, numbers_coefficient, name?_other (by simp)]
  cases read text with
  | none => rfl
  | some value =>
    dsimp only
    rw [absorb_some]
    simp

theorem absorb_name (coefficient : Option α) (text : String) (run : Items) :
    absorb read coefficient ((.name, text) :: run) =
      absorb read (some (coefficient.getD 1)) run := by
  rw [absorb_some, absorb, numbers_other read (by simp), name?_name]
  simp

end

section

variable [OfNat α 0] [Neg α] [BEq α]

/-- What a term with a coefficient and a variable adds when it is closed. -/
def closed {κ : Type} (right : Bool) (coefficient : Option α) (key : Option κ) :
    Option (Option κ × α) :=
  match coefficient with
  | none => none
  | some value => if value == 0 then none else some (key, if right then -value else value)

theorem map_closed {κ ι : Type} (rename : Option κ → Option ι) (right : Bool)
    (coefficient : Option α) (key : Option κ) :
    (closed right coefficient key).map (fun entry => (rename entry.1, entry.2)) =
      closed right coefficient (rename key) := by
  cases coefficient with
  | none => rfl
  | some value => by_cases zero : value == 0 <;> simp [closed, zero]

variable [OfNat α 1] [Mul α] (read : String → Option α)

/-- What a term adds is what it adds as an open term that has taken its run. -/
theorem contribution?_eq (right : Bool) (sign : Option Bool) (run : Items) :
    contribution? read right (sign, run) =
      closed right (absorb read (sign.map unit) run) (name? run) := by
  cases sign with
  | some negative =>
    rw [Option.map_some, absorb_some, contribution?, if_neg (by simp)]
    rfl
  | none =>
    rw [contribution?, Option.map_none, absorb]
    by_cases empty : numbers read run = [] ∧ name? run = none
    · rw [if_pos ⟨rfl, empty⟩, if_pos empty]
      rfl
    · rw [if_neg (fun all => empty all.2), if_neg empty]
      rfl

/-- The terms of a side that begin with a sign. -/
def laterContributions (right : Bool) (side : Items) : List (Option String × α) :=
  (runs side).2.filterMap fun term => contribution? read right (some term.1, term.2)

end

end Items

namespace Builder

/-! ### A side, token by token -/

section

variable [OfNat α 0] [Neg α] [BEq α]

/-- What the open term adds. -/
def openEntry (builder : Builder α) : Option (Option Symbol × α) :=
  closed builder.relation.isSome builder.coefficient builder.symbol

/-- The symbol of a name. -/
def symbolOf (table : SymbolTable) (name : Option String) : Option Symbol :=
  name.map fun text => (table.intern text).1

variable [OfNat α 1] [Mul α] (read : String → Option α) (table : SymbolTable)

/-- What the builder will enter for the rest of a side, its open term first. -/
def ahead (builder : Builder α) (rest : Items) : List (Option Symbol × α) :=
  (closed builder.relation.isSome (absorb read builder.coefficient (runs rest).1)
      (builder.symbol.or (symbolOf table (name? (runs rest).1)))).toList ++
    (laterContributions read builder.relation.isSome rest).map fun entry =>
      (symbolOf table entry.1, entry.2)

theorem ahead_nil (builder : Builder α) :
    builder.ahead read table [] = builder.openEntry.toList := by
  simp [ahead, laterContributions, runs, symbolOf, name?, absorb_nil, openEntry]

/-- A sign closes the open term and opens one of its own. -/
theorem ahead_sign (builder next : Builder α) {kind : Kind} (isSign : kind.isSign = true)
    (text : String) (rest : Items) (relation : next.relation = builder.relation)
    (coefficient : next.coefficient = some (unit (kind = .minus))) (symbol : next.symbol = none) :
    builder.ahead read table ((kind, text) :: rest) =
      builder.openEntry.toList ++ next.ahead read table rest := by
  have cut : runs ((kind, text) :: rest) =
      ([], (decide (kind = .minus), (runs rest).1) :: (runs rest).2) := by
    simp [runs, isSign]
  have first : (contribution? read builder.relation.isSome
        (some (decide (kind = .minus)), (runs rest).1)).map
          (fun entry => (symbolOf table entry.1, entry.2)) =
      closed builder.relation.isSome (absorb read (some (unit (kind = .minus))) (runs rest).1)
        (symbolOf table (name? (runs rest).1)) := by
    rw [contribution?_eq, map_closed]
    rfl
  have before : builder.symbol.or (symbolOf table (name? [])) = builder.symbol := by
    simp [symbolOf, name?]
  rw [ahead, ahead, laterContributions, cut, absorb_nil, before, relation, coefficient, symbol,
    Option.none_or, ← first, laterContributions, openEntry, List.filterMap_cons]
  dsimp only
  cases contribution? read builder.relation.isSome
    (some (decide (kind = .minus)), (runs rest).1) <;> rfl

/-- A factor stays with the open term. -/
theorem ahead_factor {builder next : Builder α} {kind : Kind} (noSign : kind.isSign = false)
    {text : String} {rest : Items} (relation : next.relation = builder.relation)
    (coefficient : absorb read builder.coefficient ((kind, text) :: (runs rest).1) =
      absorb read next.coefficient (runs rest).1)
    (symbol : builder.symbol.or (symbolOf table (name? ((kind, text) :: (runs rest).1))) =
      next.symbol.or (symbolOf table (name? (runs rest).1))) :
    builder.ahead read table ((kind, text) :: rest) = next.ahead read table rest := by
  have cut : runs ((kind, text) :: rest) = ((kind, text) :: (runs rest).1, (runs rest).2) := by
    simp [runs, noSign]
  rw [ahead, ahead, laterContributions, cut, laterContributions, relation]
  dsimp only
  rw [coefficient, symbol]

end

variable [OfNat α 0] [Add α] [Sub α] [Neg α] [BEq α]

/-- The form and the bound when these entries have been made. -/
def entered (builder : Builder α) (entries : List (Option Symbol × α)) : LinearForm α × α :=
  entries.foldl LinearForm.enter (builder.form, builder.bound)

/-- Closing a term enters it. -/
theorem closeTerm_eq (builder : Builder α) :
    (builder.closeTerm.form, builder.closeTerm.bound) =
      builder.entered builder.openEntry.toList := by
  unfold closeTerm openEntry closed
  cases builder.coefficient with
  | none => rfl
  | some value =>
    by_cases zero : value == 0
    · simp [zero, entered]
    · cases symbol : builder.symbol <;> simp [zero, entered, LinearForm.enter]

variable [OfNat α 1] [Mul α] (read : String → Option α) (table : SymbolTable)

/-- The form and the bound that the builder comes to at the end of a side. -/
def outcome (builder : Builder α) (rest : Items) : LinearForm α × α :=
  builder.entered (builder.ahead read table rest)

theorem outcome_sign (builder : Builder α) (kind : Kind) (isSign : kind.isSign = true)
    (text : String) (rest : Items) :
    (builder.openTerm (some (unit (kind = .minus)))).outcome read table rest =
      builder.outcome read table ((kind, text) :: rest) := by
  have ahead := ahead_sign read table builder (builder.openTerm (some (unit (kind = .minus))))
    isSign text rest builder.relation_closeTerm rfl rfl
  rw [outcome, outcome, ahead, entered, entered, List.foldl_append]
  exact congrArg (List.foldl LinearForm.enter · _) builder.closeTerm_eq

theorem outcome_factor {builder next : Builder α} {item : Kind × String} {rest : Items}
    (form : next.form = builder.form) (bound : next.bound = builder.bound)
    (ahead : builder.ahead read table (item :: rest) = next.ahead read table rest) :
    next.outcome read table rest = builder.outcome read table (item :: rest) := by
  rw [outcome, outcome, ahead, entered, entered, form, bound]

theorem outcome_times (builder : Builder α) (text : String) (rest : Items) :
    Builder.outcome read table { builder with atStart := false } rest =
      builder.outcome read table ((.times, text) :: rest) :=
  outcome_factor read table rfl rfl
    (ahead_factor read table rfl rfl (absorb_times read _ text _) (by rw [name?_other (by simp)]))

/-- A numeral that cannot be read leaves the open term as it is. -/
theorem outcome_coefficient (builder : Builder α) (text : String) (rest : Items) :
    let next := (builder.step (Piece.ofItem read table (.coefficient, text))).1
    next.relation = builder.relation ∧ next.symbol = builder.symbol ∧
      next.outcome read table rest = builder.outcome read table ((.coefficient, text) :: rest) := by
  intro next
  let later := { builder with atStart := false }
  have taken := absorb_coefficient read builder.coefficient text (runs rest).1
  have symbol : name? ((.coefficient, text) :: (runs rest).1) = name? (runs rest).1 :=
    name?_other (by simp) text _
  cases said : read text with
  | none =>
    have stepped : next = later := by
      simp [next, Piece.ofItem, Piece.ofToken, said, step, later]
    rw [stepped]
    refine ⟨rfl, rfl, outcome_factor read table rfl rfl ?_⟩
    exact ahead_factor read table rfl rfl (by rw [taken, said]) (by rw [symbol])
  | some value =>
    have stepped : next = later.multiply value := by
      simp [next, Piece.ofItem, Piece.ofToken, said, step, later]
    rw [stepped]
    refine ⟨rfl, rfl, outcome_factor read table rfl rfl ?_⟩
    exact ahead_factor read table rfl rfl (by rw [taken, said]; rfl) (by rw [symbol]; rfl)

/-- The first name of a term is its variable. -/
theorem outcome_name {builder : Builder α} (fresh : builder.symbol = none) (text : String)
    (rest : Items) :
    (builder.step (.name (table.intern text).1)).1.outcome read table rest =
      builder.outcome read table ((.name, text) :: rest) := by
  refine outcome_factor read table rfl rfl ?_
  refine ahead_factor read table rfl rfl (absorb_name read _ text _) ?_
  rw [fresh, name?_name]
  rfl

/-- No item of a side changes what the builder comes to at its end. -/
theorem outcome_step {item : Kind × String} {rest : Items} {builder : Builder α}
    (onSide : item.1.isOnSide = true)
    (single : SingleVariables (pending builder.symbol.isSome ++ item.1 :: rest.map Prod.fst)) :
    let next := (builder.step (Piece.ofItem read table item)).1
    next.relation = builder.relation ∧
      next.outcome read table rest = builder.outcome read table (item :: rest) ∧
      SingleVariables (pending next.symbol.isSome ++ rest.map Prod.fst) := by
  obtain ⟨kind, text⟩ := item
  let later := { builder with atStart := false }
  cases kind with
  | startOfInput | endOfInput | relation | comma => cases onSide
  | plus =>
    refine ⟨relation_closeTerm later, ?_, (singleVariables_sign rfl _ _).mp single⟩
    exact outcome_sign read table later .plus rfl text rest
  | minus =>
    refine ⟨relation_closeTerm later, ?_, (singleVariables_sign rfl _ _).mp single⟩
    exact outcome_sign read table later .minus rfl text rest
  | times =>
    have single := (singleVariables_factor rfl (by simp) _ _).mp single
    exact ⟨rfl, outcome_times read table builder text rest, single⟩
  | coefficient =>
    have single := (singleVariables_factor rfl (by simp) _ _).mp single
    obtain ⟨relation, symbol, outcome⟩ := outcome_coefficient read table builder text rest
    exact ⟨relation, outcome, by rwa [symbol]⟩
  | name =>
    -- A builder would let a second name take the place of the first, but no term has two.
    obtain ⟨unnamed, single⟩ := (singleVariables_name _ _).mp single
    have fresh : builder.symbol = none := by simpa using unnamed
    exact ⟨rfl, outcome_name read table fresh text rest, single⟩

/-- At the end of a side the builder has come where the side led it. -/
theorem closeTerm_after_side (builder : Builder α) {side : Items}
    (onSide : ∀ item ∈ side, item.1.isOnSide = true)
    (single : SingleVariables (pending builder.symbol.isSome ++ side.map Prod.fst)) :
    let last := builder.after (side.map (Piece.ofItem read table))
    last.relation = builder.relation ∧
      (last.closeTerm.form, last.closeTerm.bound) = builder.outcome read table side := by
  induction side generalizing builder with
  | nil =>
    refine ⟨rfl, ?_⟩
    rw [outcome, ahead_nil]
    exact builder.closeTerm_eq
  | cons item rest ih =>
    obtain ⟨here, restOnSide⟩ := List.forall_mem_cons.mp onSide
    obtain ⟨relation, outcome, single⟩ := outcome_step read table here single
    have later := ih _ restOnSide single
    exact ⟨later.1.trans relation, later.2.trans outcome⟩

/-- With no term open, a side leads to the contributions of its terms. -/
theorem outcome_eq {builder : Builder α} (noCoefficient : builder.coefficient = none)
    (noSymbol : builder.symbol = none) (side : Items) :
    builder.outcome read table side = builder.entered
      ((side.signedTerms.filterMap (contribution? read builder.relation.isSome)).map fun entry =>
        (symbolOf table entry.1, entry.2)) := by
  have first : (contribution? read builder.relation.isSome (none, (runs side).1)).map
        (fun entry => (symbolOf table entry.1, entry.2)) =
      closed builder.relation.isSome (absorb read none (runs side).1)
        (symbolOf table (name? (runs side).1)) := by
    rw [contribution?_eq, map_closed]
    rfl
  rw [outcome, ahead, noCoefficient, noSymbol, Option.none_or, ← first, signedTerms,
    List.filterMap_cons, List.filterMap_map, laterContributions]
  cases contribution? read builder.relation.isSome (none, (runs side).1) <;> rfl

/-- Two sides with a relational operator between them lead to their contributions. -/
theorem closeTerm_after_sides (atStart : Bool) {left right : Items} (relation : Relation)
    (leftSide : IsSide (left.map Prod.fst)) (rightSide : IsSide (right.map Prod.fst)) :
    let middle := ((fresh atStart).after (left.map (Piece.ofItem read table))).step
      (.relation relation)
    let last := middle.1.after (right.map (Piece.ofItem read table))
    last.relation = some relation ∧
      (last.closeTerm.form, last.closeTerm.bound) =
        ((left.signedTerms.filterMap (contribution? read false) ++
            right.signedTerms.filterMap (contribution? read true)).map fun entry =>
          (symbolOf table entry.1, entry.2)).foldl LinearForm.enter (.empty, 0) := by
  intro middle last
  have onSide {side : Items} (isSide : IsSide (side.map Prod.fst)) :
      ∀ item ∈ side, item.1.isOnSide = true :=
    fun item member => isSide.onSide _ (List.mem_map_of_mem member)
  let first := (fresh atStart : Builder α).after (left.map (Piece.ofItem read table))
  have leftDone : (first.closeTerm.form, first.closeTerm.bound) =
      (fresh atStart).outcome read table left :=
    (closeTerm_after_side read table (fresh atStart) (onSide leftSide) leftSide.single).2
  obtain ⟨related, rightDone⟩ :=
    closeTerm_after_side read table middle.1 (onSide rightSide) rightSide.single
  -- The operator closes the last term of the left side.
  have turned : (middle.1.form, middle.1.bound) = (fresh atStart).outcome read table left :=
    (closeTerm_eq { first with atStart := false }).trans (first.closeTerm_eq.symm.trans leftDone)
  refine ⟨related, rightDone.trans ?_⟩
  have leftLeads := @outcome_eq α _ _ _ _ _ _ _ read table (fresh atStart) rfl rfl left
  have rightLeads := @outcome_eq α _ _ _ _ _ _ _ read table middle.1 rfl rfl right
  rw [rightLeads, entered, turned, leftLeads, entered, List.map_append, List.foldl_append]
  rfl

end Builder

variable [OfNat α 0] [OfNat α 1] [Mul α] [Neg α] [BEq α]

namespace Items

/-! ### Names of contributions -/

theorem mem_of_name? {run : Items} {text : String} (named : name? run = some text) :
    (.name, text) ∈ run := by
  obtain ⟨item, member, found⟩ := List.exists_of_findSome?_eq_some named
  obtain ⟨kind, own⟩ := item
  by_cases isName : kind = .name
  · subst isName
    simp only [if_true, Option.some.injEq] at found
    exact found ▸ member
  · simp [isName] at found

theorem left_subset (part : Items) : part.left ⊆ part := List.takeWhile_subset _

theorem right_subset (part : Items) : part.right ⊆ part :=
  fun _ member => List.dropWhile_subset _ (List.mem_of_mem_tail member)

/-- The run of a term is a part of its side. -/
theorem subset_of_mem_signedTerms {side : Items} {term : Option Bool × Items}
    (isTerm : term ∈ side.signedTerms) : term.2 ⊆ side := by
  obtain ⟨⟨front, -⟩, others⟩ := runs_within side
  rcases List.mem_cons.mp isTerm with rfl | later
  · exact front.subset
  · obtain ⟨signed, inside, rfl⟩ := List.mem_map.mp later
    exact (others signed inside).1.subset

theorem mem_of_contribution {read : String → Option α} {right : Bool} {side : Items}
    {entry : Option String × α}
    (among : entry ∈ side.signedTerms.filterMap (contribution? read right)) {text : String}
    (named : entry.1 = some text) : (.name, text) ∈ side := by
  obtain ⟨term, isTerm, adds⟩ := List.mem_filterMap.mp among
  unfold contribution? at adds
  split at adds
  · cases adds
  · split at adds
    · cases adds
    · cases adds
      exact subset_of_mem_signedTerms isTerm (mem_of_name? named)

/-- What is added to a variable is added where the variable is written. -/
theorem mem_of_contributions {read : String → Option α} {part : Items} {entry : Option String × α}
    (among : entry ∈ part.contributions read) {text : String} (named : entry.1 = some text) :
    (.name, text) ∈ part := by
  rcases List.mem_append.mp among with left | right
  · exact left_subset part (mem_of_contribution left named)
  · exact right_subset part (mem_of_contribution right named)

end Items

namespace SymbolTable

/-- Among known names, a symbol stands for one of them. -/
theorem symbolOf_inj {table : SymbolTable} {first second : Option String}
    (one : ∀ name, first = some name → name ∈ table.names)
    (two : ∀ name, second = some name → name ∈ table.names) :
    Builder.symbolOf table first = Builder.symbolOf table second ↔ first = second := by
  constructor
  · intro same
    cases first with
    | none => cases second with
      | none => rfl
      | some name => cases same
    | some name => cases second with
      | none => cases same
      | some other =>
        have symbols : (table.intern name).1 = (table.intern other).1 := Option.some.inj same
        have named := name?_intern (one name rfl)
        rw [symbols, name?_intern (two other rfl)] at named
        exact named.symm
  · rintro rfl
    rfl

end SymbolTable

/-- What a part adds, with the symbols of a table for the names. -/
def Items.entries (read : String → Option α) (table : SymbolTable) (part : Items) :
    List (Option Symbol × α) :=
  (part.contributions read).map fun entry => (Builder.symbolOf table entry.1, entry.2)

section

variable (read : String → Option α) {part : Items} {table : SymbolTable}
  (known : ∀ text, (.name, text) ∈ part → text ∈ table.names)

include known

/-- The amounts of a name are those of its symbol. -/
theorem amounts_entries {name : Option String}
    (isKnown : ∀ text, name = some text → text ∈ table.names) :
    amounts (Builder.symbolOf table name) (part.entries read table) =
      amounts name (part.contributions read) :=
  amounts_map (Builder.symbolOf table) name fun _ among =>
    SymbolTable.symbolOf_inj (fun text named => known text (mem_of_contributions among named))
      isKnown

theorem amounts_of_unknown {name : String} (unknown : name ∉ table.names) :
    amounts (some name) (part.contributions read) = [] := by
  by_contra nonempty
  obtain ⟨entry, among, named⟩ := exists_entry_of_amounts nonempty
  exact unknown (known name (mem_of_contributions among named))

/-- What is entered for a symbol is entered for a name of the table. -/
theorem name?_of_entries {symbol : Symbol}
    (nonempty : amounts (some symbol) (part.entries read table) ≠ []) :
    ∃ name, table.name? symbol = some name := by
  obtain ⟨entry, among, isSymbol⟩ := exists_entry_of_amounts nonempty
  obtain ⟨own, member, rfl⟩ := List.mem_map.mp among
  obtain ⟨text, named, rfl⟩ := Option.map_eq_some_iff.mp isSymbol
  exact ⟨text, SymbolTable.name?_intern (known text (mem_of_contributions member named))⟩

end

namespace Equation

variable [Add α] [Sub α] {read : String → Option α} {part : Items} {table : SymbolTable}
  {equation : Equation α}

section

variable (known : ∀ text, (.name, text) ∈ part → text ∈ table.names)
  (form : equation.form = ((part.entries read table).foldl LinearForm.enter (.empty, 0)).1)

include known form

/-- A form into which a part was entered has at each name the sum of what was entered for it. -/
theorem coefficient?_of_entered (name : String) :
    equation.coefficient? table name =
      if amounts (some name) (part.contributions read) = [] then none
      else some ((amounts (some name) (part.contributions read)).foldl (· + ·) 0) := by
  by_cases isKnown : name ∈ table.names
  · have same : amounts (some (table.intern name).1) (part.entries read table) =
        amounts (some name) (part.contributions read) :=
      @amounts_entries α _ _ _ _ _ read part table known (some name)
        fun text named => Option.some.inj named ▸ isKnown
    have found : table.lookup? name = some (table.intern name).1 := by
      rw [SymbolTable.lookup?_of_known isKnown, SymbolTable.intern_of_known isKnown]
    rw [coefficient?, found, Option.bind_some, form, LinearForm.coefficient?_enter, same]
    rfl
  · rw [coefficient?, SymbolTable.lookup?_eq_none.mpr isKnown,
      if_pos (amounts_of_unknown read known isKnown)]
    rfl

/-- The variables of a form are those that something was entered for. -/
theorem isNamed_of_entered : equation.IsNamed table := by
  intro term member
  have occurs : equation.form.coefficient? term.1 ≠ none := by
    intro absent
    simpa using List.lookup_eq_none_iff.mp absent term member
  rw [form, LinearForm.coefficient?_enter] at occurs
  apply name?_of_entries read known
  intro nothing
  exact occurs (if_pos nothing)

end

/-- A part that is written as an equation makes one that is its sum. -/
theorem exists_sumsUp (read : String → Option α) (atStart : Bool)
    (isEquation : IsEquation (part.map Prod.fst))
    (known : ∀ text, (.name, text) ∈ part → text ∈ table.names) :
    ∃ equation, ((Builder.fresh atStart).after (part.map (Piece.ofItem read table))).finish =
        some equation ∧ equation.SumsUp read part table := by
  obtain ⟨relation, text, cut, -, leftSide, rightSide⟩ := cut_of_isEquation isEquation
  obtain ⟨related, entered⟩ :=
    Builder.closeTerm_after_sides read table atStart relation leftSide rightSide
  obtain ⟨form, bound⟩ := Prod.mk.inj entered
  generalize built : (((Builder.fresh atStart).after (part.left.map (Piece.ofItem read table))).step
    (.relation relation)).1.after (part.right.map (Piece.ofItem read table)) = last
    at related form bound
  have whole : (Builder.fresh atStart).after (part.map (Piece.ofItem read table)) = last := by
    conv_lhs => rw [cut]
    rw [List.map_append, List.map_cons, Builder.after_append, Builder.after_cons]
    exact built
  have nothing {side : Items} (isSide : IsSide (side.map Prod.fst)) :
      side.filterMap (fun item => item.1.relation?) = [] := by
    rw [List.filterMap_eq_nil_iff]
    intro item member
    simpa [Kind.isRelation] using
      Kind.isRelation_eq_false (isSide.onSide item.1 (List.mem_map_of_mem member))
  let equation : Equation α := ⟨relation, last.closeTerm.form, last.closeTerm.bound⟩
  have named : equation.IsNamed table := isNamed_of_entered known form
  refine ⟨equation, ?_, ?_, nodup_namedTerms named, ?_, ?_⟩
  · rw [whole, Builder.finish, Builder.relation_closeTerm, related]
    rfl
  · conv_lhs => rw [cut]
    rw [List.filterMap_append, List.filterMap_cons, nothing leftSide, nothing rightSide]
    rfl
  · intro name value
    rw [← Text.lookup_eq_some_iff_mem (nodup_namedTerms named), ← coefficient?_eq_lookup named,
      coefficient?_of_entered known form]
    split
    next empty => simp [empty]
    next nonempty => simp [nonempty, eq_comm]
  · have same : amounts none (part.entries read table) = amounts none (part.contributions read) :=
      @amounts_entries α _ _ _ _ _ read part table known none (by simp)
    rw [← same]
    exact bound.trans (LinearForm.bound_enter _ _)

end Equation

theorem Chain.mem_items_of_relations {chain : Chain} {part : Items}
    (among : part ∈ Items.relations chain.items.tail.dropLast) {item : Kind × String}
    (member : item ∈ part) : item ∈ chain.items :=
  List.mem_of_mem_tail (List.dropLast_subset _ (mem_of_mem_relations among member))

/-- What holds of the sum of every part holds of the equations of an accepted chain. -/
theorem Chain.forall₂_of_sumsUp [Add α] [Sub α] {holds : Items → Equation α → Prop}
    (read : String → Option α) (table : SymbolTable) {chain : Chain}
    (accepted : chain.check = .ok ())
    (each : ∀ part ∈ Items.relations chain.items.tail.dropLast, ∀ equation,
      Equation.SumsUp read part (chain.equations read table).2 equation → holds part equation) :
    List.Forall₂ holds (Items.relations chain.items.tail.dropLast)
      (chain.equations read table).1 := by
  have integral := integral_of_check accepted
  obtain ⟨first, last, items, kinds⟩ := Source.exists_inner integral
  have list : IsEquationList (chain.items.tail.dropLast.map Prod.fst) :=
    kinds ▸ integral.accepted_iff.mp accepted
  rw [Source.equations_eq read table items]
  apply Builder.forall₂_of_parts read _ (Source.inner_of_integral integral)
  intro atStart part among
  have known : ∀ text, (.name, text) ∈ part → text ∈ (chain.equations read table).2.names :=
    fun text member => Piece.mem_ofTokens read (mem_items_of_relations among member)
  obtain ⟨equation, finished, sums⟩ :=
    Equation.exists_sumsUp read atStart (isEquation_of_mem_relations list among) known
  exact ⟨equation, finished, each part among equation sums⟩

/-- The equations of an accepted chain are the sums of its parts, one by one and in the order in
which they are written, whatever the operations on numbers are. -/
theorem Chain.equations_sum_up [Add α] [Sub α] (read : String → Option α) (table : SymbolTable)
    {chain : Chain} (accepted : chain.check = .ok ()) :
    List.Forall₂ (fun part equation =>
        Equation.SumsUp read part (chain.equations read table).2 equation)
      (Items.relations chain.items.tail.dropLast) (chain.equations read table).1 :=
  forall₂_of_sumsUp read table accepted fun _ _ _ sums => sums

/-- The chain of `2x*3 - y + 4 <= 5 x` is accepted, and its equation sums up what is added with
floating-point numbers. -/
theorem Source.sums_up_on_both_sides : ∃ chain, Source.chain "2x*3 - y + 4 <= 5 x" = .ok chain ∧
    chain.check = .ok () ∧ List.Forall₂ (fun part equation => Equation.SumsUp Numeral.readFloat?
        part (chain.equations Numeral.readFloat? .empty).2 equation)
      (Items.relations chain.items.tail.dropLast)
      (chain.equations Numeral.readFloat? .empty).1 := by
  cases lexed : Source.chain "2x*3 - y + 4 <= 5 x" with
  | error diagnostic =>
    have read : (Source.chain "2x*3 - y + 4 <= 5 x").toOption.isSome := by decide +kernel
    simp [lexed, Except.toOption] at read
  | ok chain =>
    have accepted := (Source.chain_eq_ok.mp lexed).2
    exact ⟨chain, rfl, accepted, Chain.equations_sum_up Numeral.readFloat? .empty accepted⟩

end LinearSystem
