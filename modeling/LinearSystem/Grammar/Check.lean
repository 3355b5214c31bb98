import LinearSystem.Grammar.Rules
import LinearSystem.Token.Chain
/-!
Checking a chain of tokens against the grammar. Each token is checked for its links before the
rules are asked, so that a chain that does not hold together is told apart from a source that is
wrong. `Chain.check` follows the links from the first token and accepts when it has visited every
token in order and the last is the end of the source.
-/
namespace LinearSystem

open Grammar

/-- Why a chain is not accepted: a token to blame for breaking the grammar, or a place where the
chain does not hold together. -/
inductive CheckError where
  | grammar (violation : Violation) (blamed : Token)
  | integrity (location : Location)
  deriving DecidableEq, Repr

namespace CheckError

/-- The place that an error is reported at. -/
def location : CheckError → Location
  | grammar _ blamed => blamed.location
  | integrity place => place

/-- The wording of an error. -/
def message : CheckError → String
  | grammar violation _ => violation.message
  | integrity _ => "Crude modification of the token chain is detected"

end CheckError

namespace Chain

/-- A token without predecessor is the start of the source, and any other is its predecessor's
successor. -/
def linkedBack (chain : Chain) (token : Token) : Bool :=
  match token.prev with
  | none => token.kind = .startOfInput
  | some _ =>
    token.kind ≠ .startOfInput && (chain.prev? token).any (·.next = some token.index)

/-- A token without successor is the end of the source, and any other is its successor's
predecessor. -/
def linkedForward (chain : Chain) (token : Token) : Bool :=
  match token.next with
  | none => token.kind = .endOfInput
  | some _ =>
    token.kind ≠ .endOfInput && (chain.next? token).any (·.prev = some token.index)

/-- A token is stored where it says, and its neighbours agree with its links. -/
def holdsTogetherAt (chain : Chain) (token : Token) : Bool :=
  chain.get? token.index = some token && chain.linkedBack token && chain.linkedForward token

/-- Checks one token of a chain, given what has been seen before it. -/
def checkToken (chain : Chain) (seen : Seen) (token : Token) : Except CheckError Seen :=
  if chain.holdsTogetherAt token then
    match chain.prev? token with
    -- Only the start of the source holds together without a predecessor.
    | none => .ok seen
    | some previous =>
      match seen.step previous.kind token.kind with
      | .ok seen => .ok seen
      | .error violation =>
        .error (.grammar violation (if violation.blamesPrevious then previous else token))
  else .error (.integrity token.location)

/-- Checks one token; a refused token leaves what has been seen as it was. -/
def submit (chain : Chain) (seen : Seen) (token : Token) : Except CheckError Unit × Seen :=
  match chain.checkToken seen token with
  | .ok seen => (.ok (), seen)
  | .error error => (.error error, seen)

/-- Checks tokens one after the other, whether or not some are refused. -/
def submitAll (chain : Chain) (seen : Seen) : List Token → List (Except CheckError Unit)
  | [] => []
  | token :: rest =>
    let (answer, seen) := chain.submit seen token
    answer :: chain.submitAll seen rest

/-- Follows the links for at most so many tokens, from the one that should stand at a place. -/
def checkFrom (chain : Chain) : (tokens : Nat) → (place : Nat) → Seen → Token →
    Except CheckError Unit
  | 0, _, _, token => .error (.integrity token.location)
  | tokens + 1, place, seen, token =>
    if token.index ≠ place then .error (.integrity token.location)
    else
      match chain.checkToken seen token with
      | .error error => .error error
      | .ok seen =>
        if token.kind = .endOfInput then
          if place + 1 = chain.size then .ok () else .error (.integrity token.location)
        else
          match chain.next? token with
          | none => .error (.integrity token.location)
          | some next => chain.checkFrom tokens (place + 1) seen next

/-- Checks a whole chain and stops at the first error. -/
def check (chain : Chain) : Except CheckError Unit :=
  match chain.head? with
  | none => .error (.integrity ⟨1, 1⟩)
  | some first => chain.checkFrom chain.size 0 .nothing first

end Chain

end LinearSystem
