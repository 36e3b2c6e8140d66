import MixedDomain.Json.Basic
import MixedDomain.Record

/-!
# Records in JSON

## Reading

Texts, lists and records are the strings, arrays and objects.  Some records may
also be written as an array of their first fields.

## Writing

What may be missing is null then.

## Repeated names

Other formats may give the name of a member twice.  `merged` leaves each name
once, where it stands first, with the value that it has last.
-/

namespace MixedDomain
namespace Json

variable {item : Type}

def isNull : Json -> Bool
  | .null => true
  | _ => false

instance : Document Json where
  text? := asString?
  truth? := asBool?
  items? := asArray?
  members? := asObject?
  isNull := isNull

/-- The members of a record that is an object, or an array with the first of its fields. -/
def recordOrFieldsOf? (fields : List String) : Json -> Option (List (String × Json))
  | .object members => some members
  | .array items => if items.length ≤ fields.length then some (fields.zip items) else none
  | _ => none

/-- A thing that may be missing, which is null then. -/
def ofOption (write : item -> Json) : Option item -> Json
  | some x => write x
  | none => .null

def ofList (write : item -> Json) (items : List item) : Json :=
  .array (items.map write)

/-!
# Repeated names
-/

mutual

/-- The document without repeated names. -/
def merged : Json -> Json
  | .array items => .array (mergedItems items)
  | .object members => .object (Entries.ofList (mergedMembers members))
  | json => json

/-- The items without repeated names. -/
def mergedItems : List Json -> List Json
  | [] => []
  | item :: rest => merged item :: mergedItems rest

/-- The members without repeated names inside them. -/
def mergedMembers : List (String × Json) -> List (String × Json)
  | [] => []
  | (key, json) :: rest => (key, merged json) :: mergedMembers rest

end

end Json
end MixedDomain
