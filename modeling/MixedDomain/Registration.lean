import MixedDomain.Address.Trie
import MixedDomain.Resource.Basic

/-!
# Registrations

## Metadata of resource types

What is known about the attributes and operations of a type of resource, as far
as transformations ask for it: defaults and parameters.

## The management model

The resources of the source and the registrations of their types, which are
stored by address pattern.
-/

namespace MixedDomain

/-- An attribute, or a parameter of an operation. -/
structure AttributeDefinition where
  name : String
  default? : Option Value
  deriving Inhabited

def AttributeDefinition.defaultOrUndefined (d : AttributeDefinition) : Value :=
  d.default?.getD .undefined

/-- An operation of a type of resource. -/
structure OperationDefinition where
  name : String
  parameters : List AttributeDefinition
  deriving Inhabited

def OperationDefinition.parameter? (name : String) (d : OperationDefinition) :
    Option AttributeDefinition :=
  d.parameters.find? fun p => p.name == name

/-- The attributes and operations of a type of resource. -/
structure ResourceRegistration where
  attributes : List AttributeDefinition
  operations : List OperationDefinition
  deriving Inhabited

namespace ResourceRegistration

def attribute? (name : String) (r : ResourceRegistration) : Option AttributeDefinition :=
  r.attributes.find? fun a => a.name == name

def operation? (name : String) (r : ResourceRegistration) : Option OperationDefinition :=
  r.operations.find? fun o => o.name == name

end ResourceRegistration

/-- The resources of the source, and what is known about their types. -/
structure ManagementModel where
  root : Resource
  registrations : Trie ResourceRegistration

namespace ManagementModel

def ofRoot (root : Resource) : ManagementModel :=
  ⟨root, Trie.empty⟩

def register (pattern : Address) (registration : ResourceRegistration) (m : ManagementModel) :
    ManagementModel :=
  { m with registrations := m.registrations.insert pattern registration }

def resource? (a : Address) (m : ManagementModel) : Option Resource :=
  m.root.navigate? a

def registration? (a : Address) (m : ManagementModel) : Option ResourceRegistration :=
  m.registrations.get? a

end ManagementModel
end MixedDomain
