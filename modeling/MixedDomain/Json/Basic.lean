import MixedDomain.Entries
import MixedDomain.Binary64.Basic

/-!
# JSON documents

## Trees

A document is a tree whose objects keep their members in order.  Numbers without
point and exponent are integers; every other number is a binary one.
-/

namespace MixedDomain

/-- A JSON document. -/
inductive Json where
  | null
  | bool (b : Bool)
  | int (i : Int)
  | double (d : Binary64)
  | string (s : String)
  | array (items : List Json)
  | object (members : List (String × Json))
  deriving Inhabited

namespace Json

def get? (key : String) : Json -> Option Json
  | .object members => Entries.get? key members
  | _ => none

def asString? : Json -> Option String
  | .string s => some s
  | _ => none

def asArray? : Json -> Option (List Json)
  | .array items => some items
  | _ => none

def asObject? : Json -> Option (List (String × Json))
  | .object members => some members
  | _ => none

def asBool? : Json -> Option Bool
  | .bool b => some b
  | _ => none

def ofStrings (texts : List String) : Json :=
  .array (texts.map .string)

end Json
end MixedDomain
