import MixedDomain.Address.Encoding

/-!
# Operations and responses

## Operations

An operation is an object with the name of the operation and the address of the
resource; every other entry is a parameter.

## Responses

A response says in its outcome whether the operation succeeded, and holds either
a result or the description of the failure.
-/

namespace MixedDomain
namespace Operation

def nameKey : String :=
  "operation"

def addressKey : String :=
  "address"

def attributeKey : String :=
  "name"

def valueKey : String :=
  "value"

def stepsKey : String :=
  "steps"

def add : String :=
  "add"

def writeAttribute : String :=
  "write-attribute"

def undefineAttribute : String :=
  "undefine-attribute"

def composite : String :=
  "composite"

/-- The operations that only read, and are sent as they are. -/
def readOnlyNames : List String :=
  ["read-attribute", "read-resource", "read-resource-description", "read-operation-names",
    "read-operation-description", "read-children-names", "read-children-types",
    "read-children-resources"]

/-- Whether an operation only reads. -/
def isReadOnly (name : String) : Bool :=
  readOnlyNames.contains name

/-- An operation without parameters. -/
def create (name : String) (a : Address) : Value :=
  .object [(nameKey, .string name), (addressKey, a.toValue)]

def name (operation : Value) : Except ValueError String := do
  let value ← operation.require nameKey
  value.asText

/-- The address of an operation; without one it is the root. -/
def address (operation : Value) : Except ValueError Address :=
  Address.ofValue (operation.getOrUndefined addressKey)

/-- The names of the parameters, in order. -/
def parameterNames (operation : Value) : List String :=
  operation.keys.filter fun key => key != nameKey && key != addressKey

end Operation

namespace Response

def outcomeKey : String :=
  "outcome"

def resultKey : String :=
  "result"

def failureKey : String :=
  "failure-description"

def success : String :=
  "success"

def failed : String :=
  "failed"

/-- The response of success; an undefined result is left out. -/
def ofResult (result : Value) : Value :=
  if result.isDefined then
    .object [(outcomeKey, .string success), (resultKey, result)]
  else
    .object [(outcomeKey, .string success)]

def ofFailure (description : String) : Value :=
  .object [(outcomeKey, .string failed), (failureKey, .string description)]

def isSuccess (response : Value) : Bool :=
  (response.get? outcomeKey).bind Value.text? == some success

end Response
end MixedDomain
