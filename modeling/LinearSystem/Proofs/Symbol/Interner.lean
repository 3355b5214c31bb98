import LinearSystem.Proofs.Equation.Parts
import LinearSystem.Symbol.Interner
/-!
An interner is a symbol table.

The array and the hash map of an interner are changed one after the other, and numbers are cut to 32
bits. Whatever is asked of an interner, it holds what a `SymbolTable` holds after the same names
(`Interner.represents_afterCalls`). As long as there are numbers for all names, the map and the
array are inverse to each other and nothing that was given out ever changes
(`Interner.numbers_afterCalls`), and sources are read as they are with a table
(`Interner.Represents.parse_eq`).
-/
namespace LinearSystem

/-! ### Both structures together -/

namespace Interner

/-- An interner holds the names of a table, each under its number. -/
structure Represents (interner : Interner) (table : SymbolTable) : Prop where
  names : interner.names.toList = table.names
  ids : ∀ name, interner.ids[name]? = (table.lookup? name).map fun symbol => symbol.id.toUInt32

theorem represents_empty : empty.Represents .empty :=
  ⟨rfl, fun _ => Std.HashMap.getElem?_empty⟩

namespace Represents

variable {interner : Interner} {table : SymbolTable}

/-- Interning a name keeps the two structures together, and gives the number of the table. -/
theorem intern (represents : interner.Represents table) (name : String) :
    (interner.intern name).2.Represents (table.intern name).2 ∧
      (interner.intern name).1 = (table.intern name).1.id.toUInt32 := by
  -- The map has a name exactly if the table has it, so both take the same branch.
  have stored := represents.ids name
  by_cases known : name ∈ table.names
  · rw [SymbolTable.lookup?_of_known known, Option.map_some] at stored
    simp only [Interner.intern, stored, SymbolTable.intern_of_known known]
    exact ⟨represents, trivial⟩
  · rw [SymbolTable.lookup?_eq_none.mpr known, Option.map_none] at stored
    have size : interner.names.size = table.names.length := by
      rw [← represents.names, Array.length_toList]
    simp only [Interner.intern, stored, SymbolTable.intern_of_fresh known, size]
    refine ⟨⟨by simp [represents.names, SymbolTable.push], ?_⟩, trivial⟩
    intro other
    rw [Std.HashMap.getElem?_insert, SymbolTable.lookup?_push known, represents.ids other]
    by_cases same : name = other
    · simp [same]
    · simp [same]

variable {α : Type}

theorem piece (represents : interner.Represents table) (read : String → Option α) (kind : Kind)
    (text : String) :
    (interner.piece read kind text).2.Represents (Piece.ofToken read table kind text).2 := by
  cases kind with
  | name => exact (represents.intern text).1
  | startOfInput | endOfInput | plus | minus | times | relation | coefficient | comma =>
    exact represents

theorem pieces (represents : interner.Represents table) (read : String → Option α)
    (items : List (Kind × String)) :
    (interner.pieces read items).2.Represents (Piece.ofTokens read table items).2 := by
  induction items generalizing interner table with
  | nil => exact represents
  | cons item rest ih => exact ih (represents.piece read item.1 item.2)

theorem parse (represents : interner.Represents table) (source : String) :
    (interner.parse source).2.Represents (Source.parse table source).2 := by
  unfold Interner.parse Source.parse Source.parseWith
  cases Source.chain source with
  | error diagnostic => exact represents
  | ok chain => exact represents.pieces Numeral.readFloat? chain.items

end Represents

/-! ### Calls -/

/-- What can be asked of an interner. -/
inductive Call where
  | intern (name : String)
  | lookup (name : String)
  | name (id : UInt32)
  | parse (source : String)
  deriving DecidableEq, Repr

/-- What a call answers. -/
inductive Answer where
  | number (id : UInt32)
  | found (id : Option UInt32)
  | name (name : Option String)
  | parsed (outcome : Except Diagnostic (List (Equation Float)))

def call (interner : Interner) : Call → Answer × Interner
  | .intern name => (.number (interner.intern name).1, (interner.intern name).2)
  | .lookup name => (.found (interner.lookup? name), interner)
  | .name id => (.name (interner.name? id), interner)
  | .parse source => (.parsed (interner.parse source).1, (interner.parse source).2)

def afterCalls (interner : Interner) (calls : List Call) : Interner :=
  calls.foldl (fun interner call => (interner.call call).2) interner

/-- The texts of variables. -/
def namesOf (items : List (Kind × String)) : List String :=
  (items.filter fun item => item.1 = .name).map Prod.snd

/-- The variables of a source, if it is well formed. -/
def namesOfSource (source : String) : List String :=
  match Source.chain source with
  | .ok chain => namesOf chain.items
  | .error _ => []

/-- The names that a call interns. -/
def Call.interned : Call → List String
  | .intern new => [new]
  | .lookup .. | .name .. => []
  | .parse source => namesOfSource source

theorem ofTokens_eq_internAll {α : Type} (read : String → Option α) (table : SymbolTable)
    (items : List (Kind × String)) :
    (Piece.ofTokens read table items).2 = table.internAll (namesOf items) := by
  induction items generalizing table with
  | nil => rfl
  | cons item rest ih =>
    obtain ⟨kind, text⟩ := item
    rw [Piece.ofTokens_cons, ih]
    cases kind with
    | name => rfl
    | startOfInput | endOfInput | plus | minus | times | relation | coefficient | comma => rfl

theorem parse_eq_internAll (table : SymbolTable) (source : String) :
    (Source.parse table source).2 = table.internAll (namesOfSource source) := by
  unfold Source.parse Source.parseWith namesOfSource
  cases Source.chain source with
  | error diagnostic => rfl
  | ok chain => exact ofTokens_eq_internAll Numeral.readFloat? table chain.items

/-- A call changes an interner as the names that it interns change a table. -/
theorem Represents.call {interner : Interner} {table : SymbolTable}
    (represents : interner.Represents table) (call : Call) :
    (interner.call call).2.Represents (table.internAll call.interned) := by
  cases call with
  | intern name => exact (represents.intern name).1
  | lookup name => exact represents
  | name id => exact represents
  | parse source =>
    rw [Call.interned, ← parse_eq_internAll]
    exact represents.parse source

theorem Represents.afterCalls {interner : Interner} {table : SymbolTable}
    (represents : interner.Represents table) (calls : List Call) :
    (interner.afterCalls calls).Represents (table.internAll (calls.flatMap Call.interned)) := by
  -- One step of the run is one call; the names of all calls follow each other in the table.
  induction calls generalizing interner table with
  | nil => exact represents
  | cons call rest ih =>
    rw [List.flatMap_cons, SymbolTable.internAll_append]
    exact ih (represents.call call)

/-- After any calls an interner holds the names that the calls interned. -/
theorem represents_afterCalls (calls : List Call) :
    (empty.afterCalls calls).Represents (.internAll .empty (calls.flatMap Call.interned)) :=
  represents_empty.afterCalls calls

/-! ### Enough numbers -/

theorem toNat_toUInt32 {n : Nat} (small : n < UInt32.size) : n.toUInt32.toNat = n :=
  UInt32.toNat_ofNat_of_lt' small

theorem Represents.lookup?_eq {interner : Interner} {table : SymbolTable}
    (represents : interner.Represents table) (name : String) :
    interner.lookup? name = (table.lookup? name).map fun symbol => symbol.id.toUInt32 :=
  represents.ids name

theorem Represents.name?_eq {interner : Interner} {table : SymbolTable}
    (represents : interner.Represents table) (id : UInt32) :
    interner.name? id = table.name? ⟨id.toNat⟩ := by
  rw [Interner.name?, SymbolTable.name?, ← represents.names, Array.getElem?_toList]

/-- With enough numbers the map and the array are inverse to each other. -/
theorem Represents.lookup?_eq_some {interner : Interner} {table : SymbolTable}
    (represents : interner.Represents table) (few : table.names.length ≤ UInt32.size)
    {name : String} {id : UInt32} :
    interner.lookup? name = some id ↔ interner.name? id = some name := by
  rw [represents.lookup?_eq, represents.name?_eq, Option.map_eq_some_iff]
  constructor
  · rintro ⟨symbol, found, rfl⟩
    have named := SymbolTable.lookup?_eq_some_iff.mp found
    have small := SymbolTable.id_lt_of_name? named
    rwa [toNat_toUInt32 (by omega)]
  · intro named
    exact ⟨_, SymbolTable.lookup?_eq_some_iff.mpr named, UInt32.ofNat_toNat⟩

/-- An interner numbers the names that were interned: in the order in which they came up first, each
once, with the map and the array inverse to each other. -/
structure Numbers (interner : Interner) (interned : List String) : Prop where
  names : interner.names.toList = interned.eraseDups
  distinct : interner.names.toList.Nodup
  counted : ∀ place name, interner.names[place]? = some name →
    ∃ id : UInt32, id.toNat = place ∧ interner.lookup? name = some id
  inverse : ∀ name id, interner.lookup? name = some id ↔ interner.name? id = some name
  known : ∀ name, (∃ id, interner.lookup? name = some id) ↔ name ∈ interned
  injective : ∀ first second name name', interner.name? first = some name →
    interner.name? second = some name' → (first = second ↔ name = name')

/-- A later interner has the names of an earlier one in front, and neither a number's name nor a
name's number has changed. -/
structure Extends (earlier later : Interner) : Prop where
  names : earlier.names.toList <+: later.names.toList
  nameKept : ∀ id name, earlier.name? id = some name → later.name? id = some name
  idKept : ∀ name id, earlier.lookup? name = some id → later.lookup? name = some id

theorem Represents.numbers {interner : Interner} {interned : List String}
    (represents : interner.Represents (.internAll .empty interned))
    (few : interned.eraseDups.length ≤ UInt32.size) : interner.Numbers interned := by
  have names : interner.names.toList = interned.eraseDups := by
    rw [represents.names, SymbolTable.names_internAll]
  have inverse (name : String) (id : UInt32) :
      interner.lookup? name = some id ↔ interner.name? id = some name :=
    represents.lookup?_eq_some (by rwa [SymbolTable.names_internAll])
  have counted (place : Nat) (name : String) (stored : interner.names[place]? = some name) :
      ∃ id : UInt32, id.toNat = place ∧ interner.lookup? name = some id := by
    obtain ⟨bound, -⟩ := Array.getElem?_eq_some_iff.mp stored
    have size : interner.names.size = interned.eraseDups.length := by
      rw [← names, Array.length_toList]
    have same := toNat_toUInt32 (show place < UInt32.size by omega)
    exact ⟨place.toUInt32, same, (inverse _ _).mpr (by rwa [name?, same])⟩
  refine ⟨names, ?_, counted, inverse, ?_, ?_⟩
  · rw [represents.names]
    exact SymbolTable.distinct _
  · intro name
    -- What was interned is what is stored, and what is stored has been counted.
    rw [← List.mem_eraseDups, ← names, Array.mem_toList_iff]
    constructor
    · rintro ⟨id, found⟩
      exact Array.mem_of_getElem? ((inverse name id).mp found)
    · intro member
      obtain ⟨place, stored⟩ := Array.getElem?_of_mem member
      obtain ⟨id, -, found⟩ := counted place name stored
      exact ⟨id, found⟩
  · intro first second name name' named named'
    constructor
    · rintro rfl
      exact Option.some.inj (named.symm.trans named')
    · rintro rfl
      have one := (inverse name first).mpr named
      have two := (inverse name second).mpr named'
      exact Option.some.inj (one.symm.trans two)

theorem Represents.extends {earlier later : Interner} {table after : SymbolTable}
    (represents : earlier.Represents table) (represents' : later.Represents after)
    (grown : table.Extends after) : earlier.Extends later := by
  refine ⟨?_, ?_, ?_⟩
  · rw [represents.names, represents'.names]
    exact grown
  · intro id name named
    rw [represents.name?_eq] at named
    rw [represents'.name?_eq]
    exact grown.name?_eq named
  · intro name id found
    rw [represents.lookup?_eq, Option.map_eq_some_iff] at found
    obtain ⟨symbol, stored, rfl⟩ := found
    rw [represents'.lookup?_eq, grown.lookup?_eq stored, Option.map_some]

theorem lookup?_intern (interner : Interner) (name : String) :
    (interner.intern name).2.lookup? name = some (interner.intern name).1 := by
  unfold intern
  split
  next found => exact found
  · simp [lookup?]

theorem intern_of_lookup? {interner : Interner} {name : String} {id : UInt32}
    (found : interner.lookup? name = some id) : interner.intern name = (id, interner) := by
  unfold lookup? at found
  simp [intern, found]

theorem afterCalls_append (interner : Interner) (front back : List Call) :
    interner.afterCalls (front ++ back) = (interner.afterCalls front).afterCalls back :=
  List.foldl_append

/-- In any run that interns no more names than there are numbers, the interner numbers at every time
the names interned so far, and keeps what it gave out. A lookup changes nothing, and the number that
interning a name gives stands for it ever after. -/
theorem numbers_afterCalls {earlier later : List Call}
    (few : ((earlier ++ later).flatMap Call.interned).eraseDups.length ≤ UInt32.size) :
    let now := empty.afterCalls earlier
    let final := empty.afterCalls (earlier ++ later)
    now.Numbers (earlier.flatMap Call.interned) ∧ now.Extends final ∧
      (∀ name, now.call (.lookup name) = (.found (now.lookup? name), now)) ∧
      ∀ name rest, later = .intern name :: rest →
        let id := (now.intern name).1
        final.name? id = some name ∧ final.lookup? name = some id ∧
          final.intern name = (id, final) := by
  intro now final
  have nowRepresents := represents_afterCalls earlier
  have finalRepresents := represents_afterCalls (earlier ++ later)
  have grown : SymbolTable.Extends (.internAll .empty (earlier.flatMap Call.interned))
      (.internAll .empty ((earlier ++ later).flatMap Call.interned)) := by
    rw [List.flatMap_append, SymbolTable.internAll_append]
    exact SymbolTable.extends_internAll _ _
  -- Whoever has numbers for all names has them for those that came first.
  have fewNow : (earlier.flatMap Call.interned).eraseDups.length ≤ UInt32.size := by
    have fewer := List.IsPrefix.length_le grown
    rw [SymbolTable.names_internAll, SymbolTable.names_internAll] at fewer
    exact fewer.trans few
  refine ⟨nowRepresents.numbers fewNow, nowRepresents.extends finalRepresents grown,
    fun _ => rfl, ?_⟩
  rintro name rest rfl id
  -- The rest of the run starts from the interner that has just given the number out.
  have middle : (now.intern name).2.Extends final := by
    have split : final = (now.intern name).2.afterCalls rest := afterCalls_append _ _ _
    have interned := (nowRepresents.intern name).1
    rw [split]
    exact interned.extends (interned.afterCalls rest) (SymbolTable.extends_internAll _ _)
  have found : final.lookup? name = some id := middle.idKept name id (now.lookup?_intern name)
  exact ⟨((finalRepresents.numbers few).inverse name id).mp found, found, intern_of_lookup? found⟩

/-- Two names that come from a call and from a source, one of which is interned again. -/
theorem numbers_mixedCalls :
    let earlier : List Call := [.intern "y", .parse "2x = 4"]
    let later : List Call := [.intern "x", .lookup "z"]
    let now := empty.afterCalls earlier
    let final := empty.afterCalls (earlier ++ later)
    ((earlier ++ later).flatMap Call.interned).eraseDups.length ≤ UInt32.size ∧
      now.Numbers ["y", "x"] ∧ now.Extends final ∧
      final.name? (now.intern "x").1 = some "x" ∧ final.lookup? "x" = some (now.intern "x").1 := by
  intro earlier later now final
  have few : ((earlier ++ later).flatMap Call.interned).eraseDups.length ≤ UInt32.size := by
    decide +kernel
  have interned : earlier.flatMap Call.interned = ["y", "x"] := by decide +kernel
  obtain ⟨numbers, kept, -, again⟩ := numbers_afterCalls few
  obtain ⟨named, found, -⟩ := again "x" [.lookup "z"] rfl
  exact ⟨few, interned ▸ numbers, kept, named, found⟩

/-! ### Sources -/

namespace Represents

variable {interner : Interner} {table : SymbolTable} {α : Type}

theorem piece_eq (represents : interner.Represents table) (read : String → Option α) (kind : Kind)
    (text : String) (few : (Piece.ofToken read table kind text).2.names.length ≤ UInt32.size) :
    (interner.piece read kind text).1 = (Piece.ofToken read table kind text).1 := by
  cases kind with
  | name =>
    -- Every number of the table fits, so cutting it to 32 bits leaves it as it is.
    have small : (table.intern text).1.id < UInt32.size := by
      have bound := List.idxOf_lt_length_of_mem (table.mem_intern text)
      rw [table.id_intern]
      exact Nat.lt_of_lt_of_le bound few
    change Piece.name ⟨(interner.intern text).1.toNat⟩ = Piece.name (table.intern text).1
    rw [(represents.intern text).2, toNat_toUInt32 small]
  | startOfInput | endOfInput | plus | minus | times | relation | coefficient | comma => rfl

/-- With enough numbers tokens become the same pieces as with a table. -/
theorem pieces_eq (represents : interner.Represents table) (read : String → Option α)
    (items : List (Kind × String))
    (few : (Piece.ofTokens read table items).2.names.length ≤ UInt32.size) :
    (interner.pieces read items).1 = (Piece.ofTokens read table items).1 := by
  induction items generalizing interner table with
  | nil => rfl
  | cons item rest ih =>
    obtain ⟨kind, text⟩ := item
    -- The tables on the way are no larger than the one at the end.
    have later := Piece.extends_ofTokens read (Piece.ofToken read table kind text).2 rest
    have first := represents.piece_eq read kind text (later.length_le.trans few)
    have others := ih (represents.piece read kind text) few
    exact congrArg₂ List.cons first others

/-- With enough numbers a source is read as it is with a table. -/
theorem parse_eq (represents : interner.Represents table) (source : String)
    (few : (Source.parse table source).2.names.length ≤ UInt32.size) :
    (interner.parse source).1 = (Source.parse table source).1 := by
  unfold Source.parse Source.parseWith at few
  unfold Interner.parse Source.parse Source.parseWith
  cases read : Source.chain source with
  | error diagnostic => rfl
  | ok chain =>
    rw [read] at few
    have same := represents.pieces_eq Numeral.readFloat? chain.items few
    exact congrArg (fun pieces => Except.ok ((Builder.fresh true).equations pieces)) same

end Represents

end Interner

end LinearSystem
