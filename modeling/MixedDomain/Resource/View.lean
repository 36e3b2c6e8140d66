import MixedDomain.Address.Text
import MixedDomain.Error
import MixedDomain.Resource.Basic

/-!
# Views of resources

## Reading and changing

A view is a copy of a resource together with its address and a flag that says
whether it may be changed.  Views of resources below have the flag of the view
that they are derived from.
-/

namespace MixedDomain

/-- A copy of a resource at its address. -/
structure ResourceView where
  address : Address
  resource : Resource
  readOnly : Bool

namespace ResourceView

def writable (address : Address) (resource : Resource) : ResourceView :=
  ⟨address, resource, false⟩

def model (v : ResourceView) : Value :=
  v.resource.model

/-- Carries out a change, unless the view is read-only. -/
def change (action : String) (v : ResourceView) (f : Resource -> Resource) :
    Except TransformError ResourceView :=
  if v.readOnly then
    .error (.immutable v.address.text action)
  else
    .ok { v with resource := f v.resource }

def writeModel (model : Value) (v : ResourceView) : Except TransformError ResourceView :=
  v.change "write-model" (Resource.withModel model)

def updateModel (f : Value -> Value) (v : ResourceView) : Except TransformError ResourceView :=
  v.change "write-model" fun r => r.withModel (f r.model)

def registerChild (e : PathElement) (c : Resource) (v : ResourceView) :
    Except TransformError ResourceView :=
  v.change "register-child" fun r => (r.registerChild e c).2

/-- Removes a child: the child that was there, and the view afterwards. -/
def removeChild (e : PathElement) (v : ResourceView) :
    Except TransformError (Option Resource × ResourceView) :=
  (v.change "remove-child" fun r => (r.removeChild e).2).map fun w =>
    ((v.resource.removeChild e).1, w)

def derived (v : ResourceView) (relative : Address) (resource : Resource) : ResourceView :=
  ⟨v.address ++ relative, resource, v.readOnly⟩

def child? (e : PathElement) (v : ResourceView) : Option ResourceView :=
  (v.resource.child? e).map (v.derived [e])

def childrenOfKind (kind : String) (v : ResourceView) : List ResourceView :=
  (v.resource.childrenOfKind kind).map fun pair => v.derived [pair.1] pair.2

def navigate? (relative : Address) (v : ResourceView) : Option ResourceView :=
  (v.resource.navigate? relative).map (v.derived relative)

end ResourceView
end MixedDomain
