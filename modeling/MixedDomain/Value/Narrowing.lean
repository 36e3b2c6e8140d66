import MixedDomain.Text.Blank
import MixedDomain.Binary64.Decimal
import MixedDomain.Value.Encoding

/-!
# Values as things of one kind

## Numbers and texts

Numbers are wanted as numbers of another size, and texts as numbers.  A text is
read without the blanks around it.  Everything that has a text of its own can be
had as a text; lists and objects give their JSON.

## Parts

Lists, objects and properties give their parts.  A property is also an object
with one entry, and a list of properties also an object.
-/

namespace MixedDomain
namespace Value

def sameWord (s t : String) : Bool :=
  s.toList.map Char.toLower == t.toList.map Char.toLower

/-- A number within the bounds of 64 bits, the nearest bound for others. -/
def clampLong (i : Int) : Int64 :=
  Int64.ofInt (max Int64.minValue.toInt (min i Int64.maxValue.toInt))

def readLong? (s : String) : Option Int64 := do
  let i ← Text.readInt? (Text.trim s.toList)
  if fitsLong i then
    return Int64.ofInt i
  else
    none

def asBool (v : Value) : Except ValueError Bool :=
  match v with
  | .boolean b => .ok b
  | .int i => .ok (i != 0)
  | .long i => .ok (i != 0)
  | .string s =>
      if sameWord s "true" then .ok true
      else if sameWord s "false" then .ok false
      else .error (.conversion .string .boolean)
  | v => .error (.conversion v.kind .boolean)

/-- The number as a LONG, if the value has one. -/
def long? : Value -> Option Int64
  | .int i => some (Int64.ofInt i.toInt)
  | .long i => some i
  | .double d => if d.isFinite then some (clampLong d.truncate) else none
  | .bigInteger literal => readLong? literal
  | .string s => readLong? s
  | _ => none

/-- A number of 64 bits; a DOUBLE loses its fraction. -/
def asLong (v : Value) : Except ValueError Int64 :=
  match v.long? with
  | some i => .ok i
  | none => .error (.conversion v.kind .long)

def asInt (v : Value) : Except ValueError Int32 :=
  match v.long? with
  | some i =>
      if fitsInt i.toInt then
        .ok (Int32.ofInt i.toInt)
      else
        .error (.conversion v.kind .int)
  | none => .error (.conversion v.kind .int)

/-- The number as a DOUBLE, if the value has one. -/
def double? : Value -> Option Binary64
  | .int i => some (Binary64.ofInt i.toInt)
  | .long i => some (Binary64.ofInt i.toInt)
  | .double d => some d
  | .bigInteger literal => Binary64.read? (Text.trim literal.toList)
  | .bigDecimal literal => Binary64.read? (Text.trim literal.toList)
  | .string s => Binary64.read? (Text.trim s.toList)
  | _ => none

def asDouble (v : Value) : Except ValueError Binary64 :=
  match v.double? with
  | some d => .ok d
  | none => .error (.conversion v.kind .double)

/-- A text; only an undefined value has none. -/
def asText (v : Value) : Except ValueError String :=
  match v with
  | .undefined => .error (.conversion .undefined .string)
  | .string s => .ok s
  | .expression s => .ok s
  | .bigInteger literal => .ok literal
  | .bigDecimal literal => .ok literal
  | .boolean b => .ok (if b then "true" else "false")
  | .int i => .ok (toString i.toInt)
  | .long i => .ok (toString i.toInt)
  | .double d => .ok d.plain
  | .type kind => .ok kind.name
  | .bytes octets => .ok (octetText octets)
  | .list items => .ok (Value.list items).toJson.compact
  | .object entries => .ok (Value.object entries).toJson.compact
  | .property name value => .ok (Value.property name value).toJson.compact

def text? : Value -> Option String
  | .string s => some s
  | .expression s => some s
  | _ => none

def asList (v : Value) : Except ValueError (List Value) :=
  match v with
  | .list items => .ok items
  | v => .error (.conversion v.kind .list)

def asObject (v : Value) : Except ValueError (List (String × Value)) :=
  match v with
  | .object entries => .ok entries
  | v => .error (.conversion v.kind .object)

/-- The name and value of a property, or of the only entry of an object. -/
def asProperty (v : Value) : Except ValueError (String × Value) :=
  match v with
  | .property name value => .ok (name, value)
  | .object [entry] => .ok entry
  | v => .error (.conversion v.kind .property)

/-- The names and values of an object, of a list of properties, or of one property. -/
def asPropertyList (v : Value) : Except ValueError (List (String × Value)) :=
  match v with
  | .object entries => .ok entries
  | .property name value => .ok [(name, value)]
  | .list items => items.mapM asProperty
  | v => .error (.conversion v.kind .property)

def asBytes (v : Value) : Except ValueError (List UInt8) :=
  match v with
  | .bytes octets => .ok octets
  | v => .error (.conversion v.kind .bytes)

/-- A kind, or the one that a text names. -/
def asKind (v : Value) : Except ValueError Kind :=
  match v with
  | .type kind => .ok kind
  | .string s => kindOfText s
  | v => .error (.conversion v.kind .type)

end Value
end MixedDomain
