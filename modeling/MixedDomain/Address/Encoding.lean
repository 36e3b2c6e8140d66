import MixedDomain.Address.Text
import MixedDomain.Value.Narrowing

/-!
# Addresses as values

## The list of properties

An address is a list of objects with one entry each.  Reading accepts everything
that has a list of properties, the text of an address, and an undefined value
for the root.
-/

namespace MixedDomain

def PathElement.toValue (e : PathElement) : Value :=
  .object [(e.key, .string e.value)]

namespace Address

def toValue (a : Address) : Value :=
  .list (a.map PathElement.toValue)

def elementOfProperty (property : String × Value) : Except ValueError PathElement :=
  property.2.asText.map fun value => ⟨property.1, value⟩

def ofProperties (v : Value) : Except ValueError Address := do
  let properties ← v.asPropertyList
  properties.mapM elementOfProperty

def ofValue (v : Value) : Except ValueError Address :=
  match v with
  | .undefined => .ok root
  | .string s => ofText s
  | .list items => ofProperties (.list items)
  | .object entries => ofProperties (.object entries)
  | .property name value => ofProperties (.property name value)
  | v => .error (.invalidAddress v.display "not a list of properties")

end Address
end MixedDomain
