import MixedDomain.Entries
import MixedDomain.Json.Token

/-!
# Reading JSON

## The automaton

The reader takes one token at a time and keeps the arrays and objects that are
still open on a stack.  Documents that are nested deeper than `maxDepth` are
refused.  A name that an object gives twice has the last of its values.
-/

namespace MixedDomain
namespace Json

def maxDepth : Nat :=
  127

/-- An array or object that is still open; the items of an array are in reverse. -/
inductive Frame where
  | items (reversed : List Json)
  | members (members : List (String × Json))
  | member (members : List (String × Json)) (key : String)

/-- What may come next, inside the open arrays and objects. -/
inductive Reading where
  | value (stack : List Frame)
  | firstItem (stack : List Frame)
  | firstKey (stack : List Frame)
  | key (members : List (String × Json)) (stack : List Frame)
  | colon (members : List (String × Json)) (key : String) (stack : List Frame)
  | separator (stack : List Frame)
  | finished (json : Json)

/-- A document is complete: it is the whole, or a part of what is open. -/
def complete? (json : Json) : List Frame -> Option Reading
  | [] => some (.finished json)
  | .items reversed :: stack => some (.separator (.items (json :: reversed) :: stack))
  | .member members key :: stack =>
      some (.separator (.members (Entries.insert key json members) :: stack))
  | .members _ :: _ => none

def nest? (stack : List Frame) (reading : Reading) : Option Reading :=
  if stack.length < maxDepth then some reading else none

def beginValue? (stack : List Frame) : Token -> Option Reading
  | .leaf json => complete? json stack
  | .text s => complete? (.string s) stack
  | .openArray => nest? stack (.firstItem stack)
  | .openObject => nest? stack (.firstKey stack)
  | _ => none

def readStep? : Reading -> Token -> Option Reading
  | .value stack, token => beginValue? stack token
  | .firstItem stack, .closeArray => complete? (.array []) stack
  | .firstItem stack, token => beginValue? (.items [] :: stack) token
  | .firstKey stack, .closeObject => complete? (.object []) stack
  | .firstKey stack, .text key => some (.colon [] key stack)
  | .key members stack, .text key => some (.colon members key stack)
  | .colon members key stack, .colon => some (.value (.member members key :: stack))
  | .separator (.items reversed :: stack), .comma => some (.value (.items reversed :: stack))
  | .separator (.items reversed :: stack), .closeArray =>
      complete? (.array reversed.reverse) stack
  | .separator (.members members :: stack), .comma => some (.key members stack)
  | .separator (.members members :: stack), .closeObject => complete? (.object members) stack
  | _, _ => none

/-- Takes all tokens; the document must be complete then. -/
def readTokens? (reading : Reading) : List Token -> Option Json
  | [] =>
      match reading with
      | .finished json => some json
      | _ => none
  | token :: rest => do
      let next ← readStep? reading token
      readTokens? next rest

def read? (s : String) : Option Json := do
  let tokens ← tokens? s
  readTokens? (.value []) tokens

end Json
end MixedDomain
