import MixedDomain.Address.ElementMap
import MixedDomain.Value.Basic

/-!
# Resources

## The tree

A resource is a model and children at path elements, which are kept in the order
of the elements.  There is at most one child at an element.

## Reaching down

`navigate?` follows a relative address, and `updateAt?` changes the resource that
it leads to.
-/

namespace MixedDomain

/-- A node of the management model. -/
structure Resource where node ::
  model : Value
  children : List (PathElement × Resource)

namespace Resource

/-- A resource without children. -/
def ofModel (model : Value) : Resource :=
  .node model []

/-- A resource without children and with an undefined model. -/
def empty : Resource :=
  ofModel .undefined

instance : Inhabited Resource :=
  ⟨empty⟩

def withModel (model : Value) (r : Resource) : Resource :=
  { r with model := model }

def child? (e : PathElement) (r : Resource) : Option Resource :=
  ElementMap.get? e r.children

def register (r : Resource) (e : PathElement) (c : Resource) : Resource :=
  { r with children := ElementMap.insert e c r.children }

def remove (e : PathElement) (r : Resource) : Resource :=
  { r with children := ElementMap.erase e r.children }

/-- Adds or replaces a child: the child that was there, and the resource afterwards. -/
def registerChild (r : Resource) (e : PathElement) (c : Resource) : Option Resource × Resource :=
  (r.child? e, r.register e c)

/-- Removes a child: the child that was there, and the resource afterwards. -/
def removeChild (e : PathElement) (r : Resource) : Option Resource × Resource :=
  (r.child? e, r.remove e)

def childKinds (r : Resource) : List String :=
  ElementMap.kinds r.children

def childrenOfKind (kind : String) (r : Resource) : List (PathElement × Resource) :=
  ElementMap.ofKind kind r.children

def navigate? : Address -> Resource -> Option Resource
  | [], r => some r
  | e :: rest, r => (r.child? e).bind (navigate? rest)

def updateAt? (f : Resource -> Resource) : Address -> Resource -> Option Resource
  | [], r => some (f r)
  | e :: rest, r => do
      let c ← r.child? e
      let c ← updateAt? f rest c
      return { r with children := ElementMap.update e c r.children }

def ofChildren (model : Value) (pairs : List (PathElement × Resource)) : Resource :=
  .node model (pairs.foldl (fun map pair => ElementMap.insert pair.1 pair.2 map) [])

mutual

def eqv : Resource -> Resource -> Bool
  | .node model children, .node model' children' =>
      model == model' && eqvChildren children children'

def eqvChildren : List (PathElement × Resource) -> List (PathElement × Resource) -> Bool
  | [], [] => true
  | (e, c) :: rest, (e', c') :: rest' => e == e' && eqv c c' && eqvChildren rest rest'
  | _, _ => false

end

instance : BEq Resource :=
  ⟨eqv⟩

theorem navigate?_append (a b : Address) (r : Resource) :
    r.navigate? (a ++ b) = (r.navigate? a).bind (navigate? b) := by
  induction a generalizing r with
  | nil =>
      rfl
  | cons e rest ih =>
      cases h : r.child? e with
      | none => simp [navigate?, h]
      | some c => simp [navigate?, h, ih]

end Resource
end MixedDomain
