import LinearSystem.Grammar.Check
/-!
Checking tokens by calls.

A check that goes on from call to call keeps what it has seen as flags, and sets them one by one.
An `Inspection` is a piece of that work: it may stop with an error at any point, and a flag that was
set before that point is not set back.
-/
namespace LinearSystem

open Grammar

/-- Work on a token that reads and sets flags. An error keeps the flags as they are by then. -/
abbrev Inspection := ExceptT CheckError (StateM Seen)

namespace Inspection

/-- How an inspection ends that starts with some flags, and the flags after it. -/
def start {α : Type} (inspection : Inspection α) (seen : Seen) : Except CheckError α × Seen :=
  inspection.run.run seen

/-- Stops with an error unless a token holds together with its neighbours. -/
def askLinks (chain : Chain) (token : Token) : Inspection Unit :=
  if chain.holdsTogetherAt token then pure () else throw (.integrity token.location)

/-- Stops with an error if a token may not come after another one. -/
def askRules (previous token : Token) : Inspection Unit := do
  match (← get).step previous.kind token.kind with
  | .ok _ => pure ()
  | .error violation =>
    throw (.grammar violation (if violation.blamesPrevious then previous else token))

/-- Sets whether the current term has its variable. -/
def setVariable (provided : Bool) : Inspection Unit :=
  modify fun seen => { seen with hasVariable := provided }

/-- Sets whether the current equation has its relational operator. -/
def setRelation (provided : Bool) : Inspection Unit :=
  modify fun seen => { seen with hasRelation := provided }

/-- Asks the rules about a token after another one, and sets the flags that it changes. -/
def pass (previous token : Token) : Inspection Unit := do
  match token.kind with
  | .endOfInput | .times => askRules previous token
  | .plus | .minus =>
    askRules previous token
    setVariable false
  | .relation _ =>
    askRules previous token
    setVariable false
    setRelation true
  | .name =>
    askRules previous token
    setVariable true
  | .comma =>
    askRules previous token
    setVariable false
    setRelation false
  | .startOfInput | .coefficient => pure ()

end Inspection

namespace Chain

/-- Checks one token of a chain. -/
def inspect (chain : Chain) (token : Token) : Inspection Unit := do
  Inspection.askLinks chain token
  match chain.prev? token with
  -- Only the start of the source holds together without a predecessor.
  | none => pure ()
  | some previous => Inspection.pass previous token

/-- The flags after tokens were checked one after the other, whether or not some were refused. -/
def flagsAfter (chain : Chain) (seen : Seen) (tokens : List Token) : Seen :=
  tokens.foldl (fun seen token => ((chain.inspect token).start seen).2) seen

/-- Tokens that are checked one after the other, each with the answer to it. -/
def history (chain : Chain) (seen : Seen) : List Token → List (Token × Except CheckError Unit)
  | [] => []
  | token :: rest =>
    let (answer, seen) := (chain.inspect token).start seen
    (token, answer) :: chain.history seen rest

end Chain

end LinearSystem
