import MixedDomain.Json.Record
import MixedDomain.Registration
import MixedDomain.Value.Encoding

/-!
# Registrations in JSON

## Records

A registration has attributes and operations, each with a name; an attribute may
have a default, and an operation has parameters.  Inside a default, a name given
twice has the last of its values.
-/

namespace MixedDomain

/-- The value of a document, if it has one. -/
def Value.ofJson? (json : Json) : Option Value :=
  (Value.ofJson json.merged).toOption

namespace AttributeDefinition

/-- The document of an attribute; a missing default is left out. -/
def toJson (d : AttributeDefinition) : Json :=
  .object (("name", .string d.name)
    :: (d.default?.map fun value => ("default", value.toJson)).toList)

def ofJson? (json : Json) : Option AttributeDefinition := do
  let members ← json.recordOrFieldsOf? ["name", "default"]
  let name ← Record.required? Document.text? "name" members
  let default? ← Record.optional? Value.ofJson? "default" members
  return ⟨name, default?⟩

end AttributeDefinition

namespace OperationDefinition

def toJson (d : OperationDefinition) : Json :=
  .object [
    ("name", .string d.name),
    ("parameters", Json.ofList AttributeDefinition.toJson d.parameters)]

def ofJson? (json : Json) : Option OperationDefinition := do
  let members ← json.recordOrFieldsOf? ["name", "parameters"]
  let name ← Record.required? Document.text? "name" members
  let parameters ← Record.list? AttributeDefinition.ofJson? "parameters" members
  return ⟨name, parameters⟩

end OperationDefinition

namespace ResourceRegistration

def toMembers (r : ResourceRegistration) : List (String × Json) :=
  [("attributes", Json.ofList AttributeDefinition.toJson r.attributes),
    ("operations", Json.ofList OperationDefinition.toJson r.operations)]

def toJson (r : ResourceRegistration) : Json :=
  .object r.toMembers

def ofMembers? (members : List (String × Json)) : Option ResourceRegistration := do
  let attributes ← Record.list? AttributeDefinition.ofJson? "attributes" members
  let operations ← Record.list? OperationDefinition.ofJson? "operations" members
  return ⟨attributes, operations⟩

def ofJson? (json : Json) : Option ResourceRegistration := do
  let members ← json.recordOrFieldsOf? ["attributes", "operations"]
  ofMembers? members

end ResourceRegistration
end MixedDomain
