import MixedDomain.Yaml.Token

/-!
# Reading YAML

## The automaton

The reader takes one token at a time and keeps the collections that are still
open on a stack.  It reads one document in flow style: a sequence or a mapping
between brackets, possibly between markers.  A text without any is the empty
document.

## Keys

What stands before a colon is a key.  It must begin on the line of the colon and
at most `maxKeyLength` octets before it.  A key inside a sequence makes a
mapping of one pair, and a key without a colon has no value.
-/

namespace MixedDomain
namespace Yaml

def maxDepth : Nat :=
  128

def maxKeyLength : Nat :=
  1024

/-- A collection that is still open, with the place where it begins and its parts in reverse. -/
inductive Frame where
  | items (place : Place) (reversed : List Yaml)
  | pairs (place : Place) (reversed : List (Yaml × Yaml))
  | member (place : Place) (reversed : List (Yaml × Yaml)) (key : Yaml)
  | pair (key : Yaml)

/-- What may come next, inside the open collections. -/
inductive Reading where
  | start
  | content
  | entry (stack : List Frame)
  /-- The document in front of an entry is complete, and may be a key. -/
  | key (yaml : Yaml) (place : Place) (stack : List Frame)
  | value (stack : List Frame)
  | separator (stack : List Frame)
  | finished (yaml : Yaml)
  | ended (yaml : Yaml)

/-- A collection on top of the stack, unless it is nested too deeply. -/
def limited (stack : List Frame) (yaml : Yaml) : Yaml :=
  if (stack.drop maxDepth).isEmpty then yaml else .beyond

/-- A document is complete: it is the whole, or a part of what is open. -/
def complete? (yaml : Yaml) (place : Place) (stack : List Frame) : Option Reading :=
  match stack with
  | [] => some (.finished yaml)
  | .items .. :: _ => some (.key yaml place stack)
  | .pairs .. :: _ => some (.key yaml place stack)
  | .member start reversed key :: rest =>
      some (.separator (.pairs start ((key, yaml) :: reversed) :: rest))
  | .pair key :: .items start reversed :: rest =>
      some (.separator (.items start (limited stack (.mapping [(key, yaml)]) :: reversed) :: rest))
  | .pair _ :: _ => none

def close? (symbol : Symbol) (stack : List Frame) : Option Reading :=
  match symbol, stack with
  | .closeSequence, .items place reversed :: rest =>
      complete? (limited stack (.sequence reversed.reverse)) place rest
  | .closeMapping, .pairs place reversed :: rest =>
      complete? (limited stack (.mapping reversed.reverse)) place rest
  | _, _ => none

def beginDocument? (stack : List Frame) (token : Token) : Option Reading :=
  match token.symbol with
  | .scalar yaml => complete? yaml token.place stack
  | .openSequence => some (.entry (.items token.place [] :: stack))
  | .openMapping => some (.entry (.pairs token.place [] :: stack))
  | _ => none

/-- The whole document begins with this token: it is a collection. -/
def beginWhole? (token : Token) : Option Reading :=
  match token.symbol with
  | .scalar _ => none
  | _ => beginDocument? [] token

def separate? (stack : List Frame) (symbol : Symbol) : Option Reading :=
  match symbol with
  | .comma => some (.entry stack)
  | symbol => close? symbol stack

/-- An entry without a colon is an item, or a key that has no value. -/
def withEntry (yaml : Yaml) : List Frame -> List Frame
  | .items place reversed :: rest => .items place (yaml :: reversed) :: rest
  | .pairs place reversed :: rest => .pairs place ((yaml, empty) :: reversed) :: rest
  | stack => stack

def withKey? (yaml : Yaml) : List Frame -> Option (List Frame)
  | .items place reversed :: rest => some (.pair yaml :: .items place reversed :: rest)
  | .pairs place reversed :: rest => some (.member place reversed yaml :: rest)
  | _ => none

def makesKey (place colon : Place) : Bool :=
  place.line == colon.line && colon.offset ≤ place.offset + maxKeyLength

def afterKey? (yaml : Yaml) (place : Place) (stack : List Frame) (token : Token) :
    Option Reading :=
  match token.symbol with
  | .colon => if makesKey place token.place then (withKey? yaml stack).map .value else none
  | symbol => separate? (withEntry yaml stack) symbol

/-- After a colon; there may be nothing between it and the end of the entry. -/
def afterColon? (stack : List Frame) (token : Token) : Option Reading := do
  match token.symbol with
  | .comma | .closeSequence | .closeMapping =>
      match ← complete? empty token.place stack with
      | .separator stack => separate? stack token.symbol
      | _ => none
  | _ => beginDocument? stack token

def readStep? (reading : Reading) (token : Token) : Option Reading :=
  match reading, token.symbol with
  | .start, .documentStart => some .content
  | .start, _ => beginWhole? token
  | .content, .documentEnd => some (.ended empty)
  | .content, _ => beginWhole? token
  | .entry stack, .closeSequence => close? .closeSequence stack
  | .entry stack, .closeMapping => close? .closeMapping stack
  | .entry stack, _ => beginDocument? stack token
  | .key yaml place stack, _ => afterKey? yaml place stack token
  | .value stack, _ => afterColon? stack token
  | .separator stack, symbol => separate? stack symbol
  | .finished yaml, .documentEnd => some (.ended yaml)
  | .ended yaml, .documentEnd => some (.ended yaml)
  | _, _ => none

/-- Takes all tokens; the document must be complete then. -/
def readTokens? (reading : Reading) : List Token -> Option Yaml
  | [] =>
      match reading with
      | .start => some empty
      | .content => some empty
      | .finished yaml => some yaml
      | .ended yaml => some yaml
      | _ => none
  | token :: rest => do
      let next ← readStep? reading token
      readTokens? next rest

/-- Reads a text that holds at most one document. -/
def read? (s : String) : Option Yaml := do
  let tokens ← tokens? s
  readTokens? .start tokens

end Yaml
end MixedDomain
