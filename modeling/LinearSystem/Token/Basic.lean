import LinearSystem.Binary64
import LinearSystem.Location
import LinearSystem.Relation
import LinearSystem.Text.Quoted
/-!
Tokens: a kind, the text it was read from, its place in the source, and its links to the tokens
beside it. The links are plain data: whether they fit together is a property of a chain.
-/
namespace LinearSystem

/-- What a token is. A source stands between the tokens for its beginning and its end. -/
inductive Kind where
  | startOfInput
  | endOfInput
  | plus
  | minus
  | times
  | relation (relation : Relation)
  | coefficient
  | name
  | comma
  deriving DecidableEq, Repr

namespace Kind

/-- The operator itself, or a word for a kind that has no spelling of its own. -/
def spelling : Kind → String
  | startOfInput => "<SOF>"
  | endOfInput => Text.endSpelling
  | plus => "+"
  | minus => "-"
  | times => "*"
  | relation r => r.spelling
  | coefficient => "Coefficient"
  | name => "Variable"
  | comma => ","

/-- Plus and minus, which start a new term. -/
def isSign : Kind → Bool
  | plus | minus => true
  | _ => false

/-- The relation that an operator states. -/
def relation? : Kind → Option Relation
  | relation r => some r
  | _ => none

/-- Whether the kind is a relational operator. -/
def isRelation (kind : Kind) : Bool := kind.relation?.isSome

end Kind

/-- A token; `start` and `stop` are the byte offsets of its text, `prev` and `next` the places of
its neighbours in a chain and `index` its own. -/
structure Token where
  kind : Kind
  value : String
  start : Nat
  stop : Nat
  location : Location
  index : Nat
  prev : Option Nat
  next : Option Nat
  deriving DecidableEq, Repr

namespace Token

/-- A token that is in no chain yet. -/
def unlinked (kind : Kind) (text : List Char) (first after : Cursor) : Token where
  kind := kind
  value := String.ofList text
  start := first.offset
  stop := after.offset
  location := first.location
  index := 0
  prev := none
  next := none

/-- The number that a coefficient's text stands for; other tokens have none. -/
def coefficient? (token : Token) : Option Float :=
  if token.kind = .coefficient then Numeral.readFloat? token.value else none

/-- The location and the spelling, with the quoted text for kinds that have no spelling of their
own. -/
def render (token : Token) : String :=
  let head := token.location.render ++ " " ++ token.kind.spelling
  match token.kind with
  | .coefficient | .name => head ++ " " ++ Text.quote token.value
  | _ => head

end Token

end LinearSystem
