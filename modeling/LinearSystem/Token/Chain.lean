import LinearSystem.Token.Basic
/-!
Chains of tokens. A chain is a sequence whose tokens also name their neighbours; `append` keeps the
names right, while `ofList` takes tokens as they come. `Chain.Integral` says that the names and the
sequence agree and that the tokens for the two ends of the source stand at the ends and only there.
-/
namespace LinearSystem

/-- A sequence of tokens. -/
structure Chain where
  tokens : Array Token
  deriving DecidableEq, Repr

namespace Chain

/-- The chain without tokens. -/
def empty : Chain := ⟨#[]⟩

/-- The tokens as they are, links included. -/
def ofList (tokens : List Token) : Chain := ⟨tokens.toArray⟩

/-- The tokens in order. -/
def toList (chain : Chain) : List Token := chain.tokens.toList

/-- The number of tokens. -/
def size (chain : Chain) : Nat := chain.tokens.size

/-- The token at a place. -/
def get? (chain : Chain) (index : Nat) : Option Token := chain.tokens[index]?

/-- The first token. -/
def head? (chain : Chain) : Option Token := chain.get? 0

/-- The last token. -/
def last? (chain : Chain) : Option Token := chain.tokens.back?

/-- The token that a token names as its predecessor. -/
def prev? (chain : Chain) (token : Token) : Option Token := token.prev.bind chain.get?

/-- The token that a token names as its successor. -/
def next? (chain : Chain) (token : Token) : Option Token := token.next.bind chain.get?

/-- The place before a place. -/
def before? : Nat → Option Nat
  | 0 => none
  | index + 1 => some index

/-- Puts a token at the end and links it with the token before it. -/
def append (chain : Chain) (token : Token) : Chain :=
  let index := chain.size
  -- In an empty chain there is no token to modify.
  let linked := chain.tokens.modify (index - 1) fun last => { last with next := some index }
  ⟨linked.push { token with index := index, prev := before? index, next := none }⟩

/-- The token at a place of a chain of so many tokens has the links and the kind that its place
asks for. -/
def PlacedAt (size place : Nat) (token : Token) : Prop :=
  token.index = place ∧ token.prev = before? place ∧
    token.next = (if place + 1 < size then some (place + 1) else none) ∧
    (token.kind = .startOfInput ↔ place = 0) ∧ (token.kind = .endOfInput ↔ place + 1 = size)

/-- The chain is not empty and each of its tokens is where it says. -/
def Integral (chain : Chain) : Prop :=
  0 < chain.size ∧ ∀ place token, chain.get? place = some token → PlacedAt chain.size place token

@[simp] theorem size_append (chain : Chain) (token : Token) :
    (chain.append token).size = chain.size + 1 := by
  simp [append, size]

/-- What is appended stands where the chain ended. -/
theorem get?_append (chain : Chain) (token : Token) :
    (chain.append token).get? chain.size =
      some { token with
        index := chain.size, prev := before? chain.size, next := none } := by
  simp [append, get?, size, Array.getElem_push]

end Chain

end LinearSystem
