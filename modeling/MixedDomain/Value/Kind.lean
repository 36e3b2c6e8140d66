/-!
# Kinds of management values

## Names

Every value has one of fourteen kinds.  A kind is written in capital letters and
read in any case.
-/

namespace MixedDomain

/-- The kind of a management value. -/
inductive Kind where
  | undefined
  | boolean
  | int
  | long
  | double
  | bigInteger
  | bigDecimal
  | string
  | bytes
  | list
  | object
  | property
  | expression
  | type
  deriving DecidableEq, Inhabited, Repr

namespace Kind

def name : Kind -> String
  | .undefined => "UNDEFINED"
  | .boolean => "BOOLEAN"
  | .int => "INT"
  | .long => "LONG"
  | .double => "DOUBLE"
  | .bigInteger => "BIG_INTEGER"
  | .bigDecimal => "BIG_DECIMAL"
  | .string => "STRING"
  | .bytes => "BYTES"
  | .list => "LIST"
  | .object => "OBJECT"
  | .property => "PROPERTY"
  | .expression => "EXPRESSION"
  | .type => "TYPE"

def all : List Kind :=
  [.undefined, .boolean, .int, .long, .double, .bigInteger, .bigDecimal, .string, .bytes, .list,
    .object, .property, .expression, .type]

def raised (s : String) : List Char :=
  s.toList.map Char.toUpper

def read? (s : String) : Option Kind :=
  all.find? fun kind => kind.name.toList == raised s

end Kind
end MixedDomain
