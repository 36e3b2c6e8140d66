import MixedDomain.Entries
import MixedDomain.Binary64.Basic
import MixedDomain.Value.Error
import MixedDomain.Value.Literal

/-!
# Management values

## Trees

A value is a tree of fourteen kinds of nodes.  The entries of an object keep the
order in which they were inserted, and equality ignores that order.

## Access by name

An object gives access to its entries, and a property to the one entry that it
is.  Changes go to objects only, save that an undefined value becomes an object
when something is set in it.
-/

namespace MixedDomain

/-- A management value. -/
inductive Value where
  | undefined
  | boolean (b : Bool)
  | int (i : Int32)
  | long (i : Int64)
  | double (d : Binary64)
  | bigInteger (literal : String)
  | bigDecimal (literal : String)
  | string (s : String)
  | bytes (octets : List UInt8)
  | list (items : List Value)
  | object (entries : List (String × Value))
  | property (name : String) (value : Value)
  | expression (s : String)
  | type (kind : Kind)
  deriving Inhabited

namespace Value

def kind : Value -> Kind
  | .undefined => .undefined
  | .boolean _ => .boolean
  | .int _ => .int
  | .long _ => .long
  | .double _ => .double
  | .bigInteger _ => .bigInteger
  | .bigDecimal _ => .bigDecimal
  | .string _ => .string
  | .bytes _ => .bytes
  | .list _ => .list
  | .object _ => .object
  | .property _ _ => .property
  | .expression _ => .expression
  | .type _ => .type

/-!
# Equality

Entries are compared by name: two objects are equal when they have the same
number of entries and every entry of the first has an equal one in the second.
-/

mutual

def eqv : Value -> Value -> Bool
  | .undefined, .undefined => true
  | .boolean a, .boolean b => a == b
  | .int a, .int b => a == b
  | .long a, .long b => a == b
  | .double a, .double b => a.eqv b
  | .bigInteger a, .bigInteger b => a == b
  | .bigDecimal a, .bigDecimal b => a == b
  | .string a, .string b => a == b
  | .bytes a, .bytes b => a == b
  | .list a, .list b => eqvItems a b
  | .object a, .object b => a.length == b.length && coveredBy a b
  | .property n a, .property m b => n == m && eqv a b
  | .expression a, .expression b => a == b
  | .type a, .type b => a == b
  | _, _ => false

def eqvItems : List Value -> List Value -> Bool
  | [], [] => true
  | a :: as, b :: bs => eqv a b && eqvItems as bs
  | _, _ => false

def coveredBy : List (String × Value) -> List (String × Value) -> Bool
  | [], _ => true
  | (key, a) :: rest, others =>
      (match Entries.get? key others with
        | some b => eqv a b
        | none => false)
      && coveredBy rest others

end

instance : BEq Value :=
  ⟨eqv⟩

/-!
# Construction
-/

/-- The object without entries. -/
def emptyObject : Value :=
  .object []

def fitsInt (i : Int) : Bool :=
  Int32.minValue.toInt ≤ i && i ≤ Int32.maxValue.toInt

def fitsLong (i : Int) : Bool :=
  Int64.minValue.toInt ≤ i && i ≤ Int64.maxValue.toInt

def ofBoundedInt (i : Int) : Value :=
  if fitsInt i then .int (Int32.ofInt i) else .long (Int64.ofInt i)

def ofBigInteger (literal : String) : Except ValueError Value :=
  if Literal.isInteger literal.toList then
    .ok (.bigInteger literal)
  else
    .error (.invalidNumber .bigInteger literal)

def ofBigDecimal (literal : String) : Except ValueError Value :=
  if Literal.isDecimal literal.toList then
    .ok (.bigDecimal literal)
  else
    .error (.invalidNumber .bigDecimal literal)

/-!
# Access
-/

def isDefined : Value -> Bool
  | .undefined => false
  | _ => true

def isExpression : Value -> Bool
  | .expression _ => true
  | _ => false

/-- The value under a name of an object, or of a property of that name. -/
def get? (key : String) : Value -> Option Value
  | .object entries => Entries.get? key entries
  | .property name value => if name = key then some value else none
  | _ => none

def getOrUndefined (key : String) (v : Value) : Value :=
  (v.get? key).getD .undefined

/-- The value under a name, which must be there and defined. -/
def require (key : String) (v : Value) : Except ValueError Value :=
  match v.get? key with
  | some w => if w.isDefined then .ok w else .error (.missingKey key)
  | none => .error (.missingKey key)

def has (key : String) (v : Value) : Bool :=
  (v.get? key).isSome

def hasDefined (key : String) (v : Value) : Bool :=
  (v.getOrUndefined key).isDefined

def entries? : Value -> Option (List (String × Value))
  | .object entries => some entries
  | _ => none

/-- The names of the entries of an object, in order. -/
def keys (v : Value) : List String :=
  Entries.keys (v.entries?.getD [])

/-- Sets an entry of an object; an undefined value becomes an object first. -/
def set (v : Value) (key : String) (value : Value) : Except ValueError Value :=
  match v with
  | .undefined => .ok (.object [(key, value)])
  | .object entries => .ok (.object (Entries.insert key value entries))
  | v => .error (.conversion v.kind .object)

/-- Sets an entry of an object; any other value becomes an object first. -/
def put (v : Value) (key : String) (value : Value) : Value :=
  match v with
  | .object entries => .object (Entries.insert key value entries)
  | _ => .object [(key, value)]

def entry? (key : String) : Value -> Option Value
  | .object entries => Entries.get? key entries
  | _ => none

def erase (key : String) : Value -> Value
  | .object entries => .object (Entries.erase key entries)
  | v => v

/-- Appends to a list; an undefined value becomes a list first. -/
def push (v item : Value) : Except ValueError Value :=
  match v with
  | .undefined => .ok (.list [item])
  | .list items => .ok (.list (items ++ [item]))
  | v => .error (.conversion v.kind .list)

def isAmong (v : Value) (others : List Value) : Bool :=
  others.any fun other => other == v

end Value
end MixedDomain
