import MixedDomain.Resource.Basic
import MixedDomain.Value.Narrowing

/-!
# Resources as values

## The form

A resource is an object with its model and, if there are any, its children: an
object by kind of objects by name.
-/

namespace MixedDomain
namespace Resource

def modelKey : String :=
  "model"

def childrenKey : String :=
  "children"

def addChildValue (byKind : List (String × Value)) (child : PathElement × Value) :
    List (String × Value) :=
  let byName := (Entries.get? child.1.key byKind).getD Value.emptyObject
  Entries.insert child.1.key (byName.put child.1.value child.2) byKind

def valueOfParts (model : Value) (children : List (PathElement × Value)) : Value :=
  if children.isEmpty then
    .object [(modelKey, model)]
  else
    .object [(modelKey, model), (childrenKey, .object (children.foldl addChildValue []))]

mutual

def toValue : Resource -> Value
  | .node model children => valueOfParts model (childValues children)

def childValues : List (PathElement × Resource) -> List (PathElement × Value)
  | [] => []
  | (e, c) :: rest => (e, c.toValue) :: childValues rest

end

mutual

/-- The resource of a value; a value that has no model has an undefined one. -/
def ofValue : Value -> Except ValueError Resource
  | .object entries => do
      let children ← childrenOfEntries entries
      return ofChildren ((Entries.get? modelKey entries).getD .undefined) children
  | .property name value =>
      if name = childrenKey then
        (childrenOfValue value).map (ofChildren .undefined)
      else
        .ok (ofModel ((Value.property name value).getOrUndefined modelKey))
  | _ => .ok empty

def childrenOfEntries : List (String × Value) -> Except ValueError (List (PathElement × Resource))
  | [] => .ok []
  | (key, value) :: rest =>
      if key = childrenKey then childrenOfValue value else childrenOfEntries rest

def childrenOfValue : Value -> Except ValueError (List (PathElement × Resource))
  | .undefined => .ok []
  | .object kinds => childrenOfKinds kinds
  | v => .error (.conversion v.kind .object)

def childrenOfKinds : List (String × Value) -> Except ValueError (List (PathElement × Resource))
  | [] => .ok []
  | (kind, value) :: rest => do
      let first ← childrenOfNamed kind value
      let others ← childrenOfKinds rest
      return first ++ others

def childrenOfNamed (kind : String) : Value -> Except ValueError (List (PathElement × Resource))
  | .object named => childrenOfNames kind named
  | v => .error (.conversion v.kind .object)

def childrenOfNames (kind : String) :
    List (String × Value) -> Except ValueError (List (PathElement × Resource))
  | [] => .ok []
  | (name, value) :: rest => do
      let child ← ofValue value
      let others ← childrenOfNames kind rest
      return (⟨kind, name⟩, child) :: others

end

end Resource
end MixedDomain
