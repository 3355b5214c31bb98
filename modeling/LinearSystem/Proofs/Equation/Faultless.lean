import LinearSystem.Equation.Interned
import LinearSystem.Proofs.Equation.Symbols
import LinearSystem.Proofs.Lexical.Scanner
import LinearSystem.Proofs.Symbol.Growth
/-!
Reading a source and showing what was read are never at a fault.

A scanner cuts texts out of a source by byte offsets and looks tokens up by their places, and an
interner looks names up by their numbers. Where nothing is found, this is a fault. The offsets and
places of a scanner always fit (`Scanner.Reads`). The number of a name is below the number of names
that there are once it is given out, even where it was cut to 32 bits, and names are only added. So
each number in an answer of an interner has a name from then on, however many names there are
(`Interner.given_afterCalls`). Whatever else is shown, a report for one, takes nothing out of a text
by offsets and nothing out of a table.
-/
namespace LinearSystem

namespace Interner

/-- A symbol whose number fits into 32 bits and into the array of names. -/
def Gave (interner : Interner) (symbol : Symbol) : Prop :=
  symbol.id < UInt32.size ∧ symbol.id < interner.names.size

theorem Gave.exists_name {interner : Interner} {symbol : Symbol} (gave : interner.Gave symbol) :
    ∃ name, interner.name? symbol.id.toUInt32 = some name := by
  rw [name?, toNat_toUInt32 gave.1]
  exact ⟨_, Array.getElem?_eq_getElem gave.2⟩

namespace Represents

variable {interner later : Interner} {table table' : SymbolTable}
  (represents : interner.Represents table)

include represents

theorem size_eq : interner.names.size = table.names.length := by
  rw [← represents.names, Array.length_toList]

/-- Names are only added. -/
theorem gave_later (represents' : later.Represents table') (grown : table.Extends table')
    {symbol : Symbol} (gave : interner.Gave symbol) : later.Gave symbol := by
  have more := List.IsPrefix.length_le grown
  rw [← represents.size_eq, ← represents'.size_eq] at more
  exact ⟨gave.1, Nat.lt_of_lt_of_le gave.2 more⟩

/-- To cut a number to 32 bits makes it no larger. -/
theorem gave_cut {symbol : Symbol} (inside : symbol.id < table.names.length) :
    interner.Gave ⟨symbol.id.toUInt32.toNat⟩ := by
  refine ⟨UInt32.toNat_lt_size _, ?_⟩
  rw [represents.size_eq]
  refine Nat.lt_of_le_of_lt ?_ inside
  simp only [Nat.toUInt32_eq, UInt32.toNat_ofNat']
  exact Nat.mod_le _ _

theorem gave_lookup {name : String} {id : UInt32} (found : interner.lookup? name = some id) :
    interner.Gave ⟨id.toNat⟩ := by
  rw [represents.lookup?_eq, Option.map_eq_some_iff] at found
  obtain ⟨symbol, stored, rfl⟩ := found
  exact represents.gave_cut
    (SymbolTable.id_lt_of_name? (SymbolTable.lookup?_eq_some_iff.mp stored))

theorem gave_intern (name : String) :
    (interner.intern name).2.Gave ⟨(interner.intern name).1.toNat⟩ :=
  (represents.intern name).1.gave_lookup (interner.lookup?_intern name)

variable {α : Type}

theorem gave_piece {read : String → Option α} {kind : Kind} {text : String} {symbol : Symbol}
    (named : (interner.piece read kind text).1 = .name symbol) :
    (interner.piece read kind text).2.Gave symbol := by
  cases kind with
  | name =>
    cases named
    exact represents.gave_intern text
  | startOfInput | endOfInput | plus | minus | times | relation | coefficient | comma => cases named

theorem gave_pieces (read : String → Option α) (items : List (Kind × String)) :
    ∀ symbol, .name symbol ∈ (interner.pieces read items).1 →
      (interner.pieces read items).2.Gave symbol := by
  induction items generalizing interner table with
  | nil => exact fun symbol member => absurd member List.not_mem_nil
  | cons item rest ih =>
    obtain ⟨kind, text⟩ := item
    have next := represents.piece read kind text
    intro symbol member
    rcases List.mem_cons.mp member with first | others
    · exact next.gave_later (next.pieces read rest) (Piece.extends_ofTokens read _ rest)
        (represents.gave_piece first.symm)
    · exact ih next symbol others

theorem gave_parse {source : String} {equations : List (Equation Float)}
    (parsed : (interner.parse source).1 = .ok equations) :
    ∀ equation ∈ equations, equation.form.Each (interner.parse source).2.Gave := by
  unfold Interner.parse at parsed ⊢
  cases lexed : Source.chain source with
  | error diagnostic => simp [lexed] at parsed
  | ok chain =>
    simp only [lexed] at parsed ⊢
    cases parsed
    exact Builder.forall_variables (Builder.each_fresh true)
      (represents.gave_pieces Numeral.readFloat? chain.items)

end Represents

/-! ### Calls -/

/-- The symbols that an answer gives out. -/
def Answer.symbols : Answer → List Symbol
  | .number id => [⟨id.toNat⟩]
  | .found id => id.toList.map fun id => ⟨id.toNat⟩
  | .name _ => []
  | .parsed (.error _) => []
  | .parsed (.ok equations) => equations.flatMap fun equation => equation.form.terms.map Prod.fst

theorem Represents.gave_call {interner : Interner} {table : SymbolTable}
    (represents : interner.Represents table) (call : Call) :
    ∀ symbol ∈ (interner.call call).1.symbols, (interner.call call).2.Gave symbol := by
  intro symbol member
  cases call with
  | intern name =>
    obtain rfl := List.mem_singleton.mp member
    exact represents.gave_intern name
  | lookup name =>
    obtain ⟨id, found, rfl⟩ := List.mem_map.mp member
    exact represents.gave_lookup (Option.mem_toList.mp found)
  | name id => cases member
  | parse source =>
    simp only [Interner.call] at member ⊢
    cases parsed : (interner.parse source).1 with
    | error diagnostic => simp [parsed, Answer.symbols] at member
    | ok equations =>
      simp only [parsed, Answer.symbols] at member
      obtain ⟨equation, among, variable'⟩ := List.mem_flatMap.mp member
      obtain ⟨term, listed, rfl⟩ := List.mem_map.mp variable'
      exact represents.gave_parse parsed equation among term listed

/-- Whatever is asked before and after, what an answer gives out has a name from then on. -/
theorem given_afterCalls (earlier later : List Call) (call : Call) :
    let now := empty.afterCalls earlier
    let final := empty.afterCalls (earlier ++ call :: later)
    ∀ symbol ∈ (now.call call).1.symbols, final.Gave symbol := by
  intro now final symbol member
  have represents := represents_afterCalls earlier
  have after := represents.call call
  have split : final = (now.call call).2.afterCalls later := afterCalls_append _ _ _
  rw [split]
  exact after.gave_later (after.afterCalls later) (SymbolTable.extends_internAll _ _)
    (represents.gave_call call symbol member)

/-! ### Showing -/

variable {α : Type} {interner : Interner}

theorem mapM_eq_some {β : Type} {result : α → Option β} {found : α → β} {list : List α}
    (each : ∀ element ∈ list, result element = some (found element)) :
    list.mapM result = some (list.map found) := by
  induction list with
  | nil => rfl
  | cons element rest ih =>
    obtain ⟨first, others⟩ := List.forall_mem_cons.mp each
    rw [List.mapM_cons, first, ih others]
    rfl

/-- Terms whose numbers were given out are shown. -/
theorem terms?_eq {order : List (Symbol × α)} (gave : ∀ term ∈ order, interner.Gave term.1) :
    interner.terms? order = some (interner.terms order) := by
  have named : order.mapM (fun term =>
      (interner.name? term.1.id.toUInt32).map fun name => (name, term.2)) =
        some (order.map fun term => (interner.nameOf term.1, term.2)) := by
    apply mapM_eq_some
    intro term member
    obtain ⟨name, found⟩ := (gave term member).exists_name
    rw [nameOf, found]
    rfl
  rw [terms?, named]
  rfl

theorem line?_eq {order : List (Symbol × Float)} (equation : Equation Float)
    (gave : ∀ term ∈ order, interner.Gave term.1) :
    interner.line? equation order = some (interner.line equation order) := by
  rw [line?, terms?_eq gave]
  rfl

/-- Any order in which the variables of an equation are gone through. -/
def AnyOrder (order : List (Symbol × Float) → List (Symbol × Float)) : Prop :=
  ∀ terms, (order terms).Perm terms

/-- Collects the equations of tokens as `collect` does, and shows each of them as soon as it is
there. -/
def collect? (order : List (Symbol × Float) → List (Symbol × Float)) (interner : Interner)
    (builder : Builder Float) : List (Kind × String) → Option (List (Equation Float) × Interner)
  | [] => some ([], interner)
  | (kind, text) :: rest =>
    let (piece, interner) := interner.piece Numeral.readFloat? kind text
    match builder.step piece with
    | (builder, .more) => collect? order interner builder rest
    | (builder, .answer (some equation)) => do
      let _ ← interner.line? equation (order equation.form.terms)
      let (equations, interner) ← collect? order interner builder rest
      return (equation :: equations, interner)
    | (_, .answer none) => some ([], interner)

/-- Reads a source with a scanner, and shows its equations as they are collected. -/
def parse? (order : List (Symbol × Float) → List (Symbol × Float)) (interner : Interner)
    (source : String) : Option (Except Diagnostic (List (Equation Float)) × Interner) := do
  match ← (Scanner.ofSource source).finish? with
  | .error error => return (.error (error.diagnostic source), interner)
  | .ok chain =>
    match chain.check with
    | .error error => return (.error (error.diagnostic source), interner)
    | .ok () =>
      let (equations, interner) ← interner.collect? order (Builder.fresh true) chain.items
      return (.ok equations, interner)

theorem Represents.collect?_eq {order : List (Symbol × Float) → List (Symbol × Float)}
    (anyOrder : AnyOrder order) {table : SymbolTable} (represents : interner.Represents table)
    {builder : Builder Float} (each : builder.Each interner.Gave) (items : List (Kind × String)) :
    interner.collect? order builder items =
      some (interner.collect Numeral.readFloat? builder items) := by
  -- The builder holds only numbers that were given out, and so does each equation that it answers.
  induction items generalizing interner table builder with
  | nil => rfl
  | cons item rest ih =>
    obtain ⟨kind, text⟩ := item
    have next := represents.piece Numeral.readFloat? kind text
    have later := each.mono fun symbol =>
      represents.gave_later next (Piece.extends_ofToken Numeral.readFloat? table kind text)
    have taken := later.step _ fun symbol named => represents.gave_piece named
    have answered := later.answer (interner.piece Numeral.readFloat? kind text).1
    simp only [collect?, collect]
    cases stepped : builder.step (interner.piece Numeral.readFloat? kind text).1 with
    | mk after reply =>
      rw [stepped] at taken answered
      cases reply with
      | more => exact ih next taken
      | answer equation =>
        cases equation with
        | none => rfl
        | some equation =>
          have gave : ∀ term ∈ order equation.form.terms, _ := fun term listed =>
            answered equation rfl term ((anyOrder _).subset listed)
          simp only [line?_eq equation gave, ih next taken]
          rfl

/-- A source is read without a fault, also where its equations are shown while it is read. -/
theorem Represents.parse?_eq {order : List (Symbol × Float) → List (Symbol × Float)}
    (anyOrder : AnyOrder order) {table : SymbolTable} (represents : interner.Represents table)
    (source : String) : interner.parse? order source = some (interner.parse source) := by
  have lexed : (Scanner.ofSource source).finish? = some (Chain.ofSource source) :=
    (Scanner.reads_ofSource source).finish? (by simp [TokenStream.ofSource, Token.unlinked])
  rw [parse_eq_inTurn, parse?, lexed, parseInTurn, Source.chain]
  cases Chain.ofSource source with
  | error error => rfl
  | ok chain =>
    cases checked : chain.check with
    | error error => simp [checked]
    | ok accepted =>
      simp [checked, represents.collect?_eq anyOrder (Builder.each_fresh true)]

end Interner

/-- No source and no calls lead to a fault. Any calls of `advance` and `next?` give what they give
on a stream, with the current token in the chain after them. Whatever an interner is asked before,
the source is read, also where each equation is shown as soon as it is there; and whatever is asked
after that, every number that was given out has a name, and every equation that was read can be
shown. The variables of an equation may be gone through in any order. -/
theorem Source.no_fault (source : String) :
    let scanner := Scanner.ofSource source
    let stream := TokenStream.ofSource source
    (∀ calls, ∃ after, scanner.run? calls = some (stream.history calls, after) ∧
      after.chain = (stream.afterCalls calls).chain ∧
      after.token? = some (stream.afterCalls calls).current) ∧
    ∀ earlier, let now := Interner.empty.afterCalls earlier
      (∀ order, Interner.AnyOrder order →
        now.parse? order source = some (now.parse source)) ∧
      (∀ later call, ∀ symbol ∈ (now.call call).1.symbols,
        let final := Interner.empty.afterCalls (earlier ++ call :: later)
        ∃ name, final.name? symbol.id.toUInt32 = some name) ∧
      ∀ later equations, (now.parse source).1 = .ok equations → ∀ equation ∈ equations,
        ∀ order, order.Perm equation.form.terms →
          let final := Interner.empty.afterCalls (earlier ++ .parse source :: later)
          final.terms? order = some (final.terms order) ∧
            final.line? equation order = some (final.line equation order) := by
  intro scanner stream
  refine ⟨?_, fun earlier => ⟨?_, ?_, ?_⟩⟩
  · intro calls
    obtain ⟨after, ran, there⟩ := (Scanner.reads_ofSource source).run? calls
    exact ⟨after, ran, there.chain, there.current⟩
  · intro order anyOrder
    exact (Interner.represents_afterCalls earlier).parse?_eq anyOrder source
  · intro later call symbol given
    exact (Interner.given_afterCalls earlier later call symbol given).exists_name
  · intro later equations parsed equation member order anyOrder final
    have gave : ∀ term ∈ order, final.Gave term.1 := by
      intro term listed
      apply Interner.given_afterCalls earlier later (.parse source)
      rw [Interner.call, parsed]
      exact List.mem_flatMap.mpr
        ⟨equation, member, List.mem_map_of_mem (anyOrder.subset listed)⟩
    exact ⟨Interner.terms?_eq gave, Interner.line?_eq equation gave⟩

end LinearSystem
