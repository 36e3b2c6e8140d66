import MixedDomain.Text.Base64
import MixedDomain.Json.Printer
import MixedDomain.Value.Basic

/-!
# Values as JSON

## Wrappers

Kinds that JSON does not have are written as an object with one member whose
name says the kind.  Reading takes exactly such objects for values of the kind,
and every other object for an OBJECT.

## Numbers

An integer is an INT, a LONG or a BIG_INTEGER, the first of these that holds it.
-/

namespace MixedDomain
namespace Value

def expressionKey : String :=
  "EXPRESSION_VALUE"

def bytesKey : String :=
  "BYTES_VALUE"

def bigIntegerKey : String :=
  "BIG_INTEGER_VALUE"

def bigDecimalKey : String :=
  "BIG_DECIMAL_VALUE"

def propertyKey : String :=
  "PROPERTY_VALUE"

def typeKey : String :=
  "TYPE_MODEL_VALUE"

def wrapperKeys : List String :=
  [expressionKey, bytesKey, bigIntegerKey, bigDecimalKey, propertyKey, typeKey]

def octetText (octets : List UInt8) : String :=
  String.ofList (Text.Base64.encode octets)

/-!
# Writing
-/

def wrap (key : String) (inner : Json) : Json :=
  .object [(key, inner)]

mutual

def toJson : Value -> Json
  | .undefined => .null
  | .boolean b => .bool b
  | .int i => .int i.toInt
  | .long i => .int i.toInt
  | .double d => if d.isFinite then .double d else .string d.plain
  | .bigInteger literal => wrap bigIntegerKey (.string literal)
  | .bigDecimal literal => wrap bigDecimalKey (.string literal)
  | .string s => .string s
  | .bytes octets => wrap bytesKey (.string (octetText octets))
  | .list items => .array (itemsToJson items)
  | .object entries => .object (entriesToJson entries)
  | .property name value =>
      wrap propertyKey (.object [("name", .string name), ("value", value.toJson)])
  | .expression s => wrap expressionKey (.string s)
  | .type kind => wrap typeKey (.string kind.name)

def itemsToJson : List Value -> List Json
  | [] => []
  | item :: rest => item.toJson :: itemsToJson rest

def entriesToJson : List (String × Value) -> List (String × Json)
  | [] => []
  | (key, value) :: rest => (key, value.toJson) :: entriesToJson rest

end

/-- The text of a value inside messages: an expression is shown as such, an undefined value by
name, and every other value as JSON. -/
def display : Value -> String
  | .undefined => "undefined"
  | .expression s => "expression \"" ++ s ++ "\""
  | v => v.toJson.compact

/-!
# Reading
-/

def wrappedText (inner : Json) : Except ValueError String :=
  match inner with
  | .string s => .ok s
  | _ => .error (.conversion .object .string)

def kindOfText (s : String) : Except ValueError Kind :=
  match Kind.read? s with
  | some kind => .ok kind
  | none => .error (.conversion .string .type)

def octetsOfText (s : String) : Except ValueError (List UInt8) :=
  match Text.Base64.decode s.toList with
  | some octets => .ok octets
  | none => .error (.conversion .string .bytes)

/-- The value of an integer: the first kind that holds it. -/
def ofInteger (i : Int) : Value :=
  if fitsLong i then ofBoundedInt i else .bigInteger (toString i)

/-- The value inside a wrapper around a text; nothing if the name belongs to no such wrapper. -/
def unwrapText (key : String) (inner : Json) : Option (Except ValueError Value) :=
  if key = expressionKey then
    some ((wrappedText inner).map .expression)
  else if key = bigIntegerKey then
    some (wrappedText inner >>= ofBigInteger)
  else if key = bigDecimalKey then
    some (wrappedText inner >>= ofBigDecimal)
  else if key = typeKey then
    some (wrappedText inner >>= fun s => (kindOfText s).map .type)
  else if key = bytesKey then
    some (wrappedText inner >>= fun s => (octetsOfText s).map .bytes)
  else
    none

def propertyName (inner : Json) : Except ValueError String :=
  match (inner.get? "name").bind Json.asString? with
  | some name => .ok name
  | none => .error (.missingKey "name")

mutual

def ofJson : Json -> Except ValueError Value
  | .null => .ok .undefined
  | .bool b => .ok (.boolean b)
  | .int i => .ok (ofInteger i)
  | .double d => .ok (.double d)
  | .string s => .ok (.string s)
  | .array items => (itemsOfJson items).map .list
  | .object members =>
      match members with
      | [(key, inner)] =>
          match unwrapText key inner with
          | some result => result
          | none =>
              if key = propertyKey then
                propertyOfJson inner
              else
                (ofJson inner).map fun value => .object [(key, value)]
      | members => (membersOfJson members).map .object

def itemsOfJson : List Json -> Except ValueError (List Value)
  | [] => .ok []
  | item :: rest => do
      let value ← ofJson item
      let values ← itemsOfJson rest
      return value :: values

def membersOfJson : List (String × Json) -> Except ValueError (List (String × Value))
  | [] => .ok []
  | (key, json) :: rest => do
      let value ← ofJson json
      let values ← membersOfJson rest
      return (key, value) :: values

/-- The property inside its wrapper; without a value it is undefined. -/
def propertyOfJson : Json -> Except ValueError Value
  | .object members => do
      let name ← propertyName (.object members)
      let value ← memberOfJson "value" members
      return .property name value
  | _ => .error (.missingKey "name")

def memberOfJson (key : String) : List (String × Json) -> Except ValueError Value
  | [] => .ok .undefined
  | (k, json) :: rest => if k = key then ofJson json else memberOfJson key rest

end

end Value
end MixedDomain
