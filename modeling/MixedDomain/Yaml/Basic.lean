import MixedDomain.Binary64.Decimal
import MixedDomain.Json.Basic
import MixedDomain.Record

/-!
# YAML documents

## Trees

A document is a tree of scalars, sequences and mappings.  The keys of a mapping
may be any documents, and repeated keys are kept.  Collections below a certain
depth are not looked into.

## Plain scalars

A scalar without quotes stands for what its text looks like: nothing, a truth
value, an integer in one of four bases, a binary number, or else the text
itself.  Integers have 64 bits.  Those beyond 64 bits are refused up to 128 bits,
and binary numbers from there on.
-/

namespace MixedDomain

/-- A YAML document. -/
inductive Yaml where
  /-- A scalar without quotes. -/
  | plain (text : String)
  | quoted (text : String)
  | sequence (items : List Yaml)
  | mapping (pairs : List (Yaml × Yaml))
  | beyond
  deriving Inhabited

namespace Yaml

def empty : Yaml :=
  .plain ""

def nullTexts : List String :=
  ["", "null", "Null", "NULL", "~"]

def truthOf? (s : String) : Option Bool :=
  if ["true", "True", "TRUE"].contains s then some true
  else if ["false", "False", "FALSE"].contains s then some false
  else none

def hasLeadingZero (cs : List Char) : Bool :=
  cs.head? == some '0' && cs.length != 1 && cs.all Text.isDigit

def readMagnitude? : List Char -> Option Nat
  | '0' :: 'x' :: rest => Text.readBase? 16 rest
  | '0' :: 'o' :: rest => Text.readBase? 8 rest
  | '0' :: 'b' :: rest => Text.readBase? 2 rest
  | cs => if hasLeadingZero cs then none else Text.readDigits? cs

def readInteger? : List Char -> Option Int
  | '-' :: rest => (readMagnitude? rest).map fun n => -(n : Int)
  | '+' :: rest => (readMagnitude? rest).map fun n => (n : Int)
  | cs => (readMagnitude? cs).map fun n => (n : Int)

def nonFiniteTexts : List String :=
  [".inf", ".Inf", ".INF", "+.inf", "+.Inf", "+.INF", "-.inf", "-.Inf", "-.INF",
    ".nan", ".NaN", ".NAN"]

/-- Whether an integer has as many bits, the one of its sign included if it is below zero. -/
def fits (bits : Nat) (i : Int) : Bool :=
  -((1 <<< (bits - 1) : Nat) : Int) ≤ i && i < ((1 <<< bits : Nat) : Int)

/-- The binary number or the text that a plain scalar stands for.  JSON has no infinities, they
count as nothing. -/
def numberOrText (s : String) : Json :=
  let cs := s.toList
  let digits := if cs.head? == some '-' || cs.head? == some '+' then cs.drop 1 else cs
  if nonFiniteTexts.contains s then
    .null
  else if hasLeadingZero digits then
    .string s
  else
    match Binary64.read? cs with
    | some d => if d.isFinite then .double d else .string s
    | none => .string s

def resolve? (s : String) : Option Json :=
  if nullTexts.contains s then
    some .null
  else
    match truthOf? s, readInteger? s.toList with
    | some b, _ => some (.bool b)
    | none, some i =>
        if fits 64 i then some (.int i)
        else if fits 128 i then none
        else some (numberOrText s)
    | none, none => some (numberOrText s)

def text? : Yaml -> Option String
  | .plain s => some s
  | .quoted s => some s
  | _ => none

def truth? : Yaml -> Option Bool
  | .plain s => truthOf? s
  | _ => none

def isNull : Yaml -> Bool
  | .plain s => nullTexts.contains s
  | _ => false

/-- The items of a sequence; where nothing is written there are none. -/
def items? : Yaml -> Option (List Yaml)
  | .sequence items => some items
  | .plain "" => some []
  | _ => none

def membersOfPairs? (pairs : List (Yaml × Yaml)) : Option (List (String × Yaml)) :=
  pairs.mapM fun pair => pair.1.text?.map fun key => (key, pair.2)

/-- The members of a mapping; where nothing is written there are none. -/
def members? : Yaml -> Option (List (String × Yaml))
  | .mapping pairs => membersOfPairs? pairs
  | .plain "" => some []
  | _ => none

instance : Document Yaml where
  text? := text?
  truth? := truth?
  items? := items?
  members? := members?
  isNull := isNull

/-!
# The same document in JSON
-/

mutual

def toJson? : Yaml -> Option Json
  | .plain s => resolve? s
  | .quoted s => some (.string s)
  | .sequence items => (itemsToJson? items).map .array
  | .mapping pairs => (pairsToJson? pairs).map .object
  | .beyond => none

def itemsToJson? : List Yaml -> Option (List Json)
  | [] => some []
  | item :: rest => do
      let json ← toJson? item
      let others ← itemsToJson? rest
      return json :: others

def pairsToJson? : List (Yaml × Yaml) -> Option (List (String × Json))
  | [] => some []
  | (key, value) :: rest => do
      let name ← key.text?
      let json ← toJson? value
      let others ← pairsToJson? rest
      return (name, json) :: others

end

end Yaml
end MixedDomain
