import MixedDomain.Description.Placement

/-!
# Descriptions of resources

## One resource

A description says for a type of resource whether it is withheld from the target,
where it is on the target, how its attributes are transformed and what becomes of
its operations.

## Trees

Descriptions form a tree.  Every node has its address, which is the way to it
from the top; the address may contain wildcards.
-/

namespace MixedDomain

/-- Whether a resource or operation is kept from the target. -/
inductive Withholding where
  | never
  /-- It is dropped without a word. -/
  | silent
  /-- It is dropped with a warning, and operations on it are rejected. -/
  | rejectAndWarn
  deriving DecidableEq, Inhabited, Repr

/-- How it is decided whether a resource is withheld. -/
inductive WithholdingPolicy where
  | fixed (withholding : Withholding)
  | byAddress (decide : Address -> Context -> Withholding)

def WithholdingPolicy.decide (p : WithholdingPolicy) (a : Address) (c : Context) : Withholding :=
  match p with
  | .fixed withholding => withholding
  | .byAddress decideAt => decideAt a c

/-- Where a resource is on the target. -/
inductive Redirection where
  /-- At another element; a wildcard changes the key only. -/
  | element (e : PathElement)
  | place (place : PathElement -> Address -> Address)

def Redirection.apply (r : Redirection) (e : PathElement) (parent : Address) : Address :=
  match r with
  | .element swap => parent.child (if swap.isWildcard then ⟨swap.key, e.value⟩ else swap)
  | .place move => move e parent

/-- How a type of resource is transformed. -/
structure ResourceDescription where
  element : PathElement
  withholding : WithholdingPolicy
  redirection? : Option Redirection
  attributes : List AttributeDescription
  operations : List (String × Transformer)
  placement? : Option Placement

namespace ResourceDescription

def targetBelow (d : ResourceDescription) (e : PathElement) (parent : Address) : Address :=
  match d.redirection? with
  | some redirection => redirection.apply e parent
  | none => parent.child e

/-- The transformer of an operation; operations that are not mentioned are sent as they are. -/
def transformerOf (d : ResourceDescription) (operation : String) : Transformer :=
  (Entries.get? operation d.operations).getD .pass

/-- Transforms the model of a resource; resources that are read meanwhile are protected. -/
def transformModel (d : ResourceDescription) (a : Address) (model : Value) : TransformM Value :=
  TransformM.guarded (Rule.runAllOnModel a [.parameters d.attributes] model)

end ResourceDescription

/-- A tree of descriptions. -/
structure DescriptionTree where node ::
  description : ResourceDescription
  children : List DescriptionTree

namespace DescriptionTree

def element (t : DescriptionTree) : PathElement :=
  t.description.element

/-- The tree below the top for exactly this element. -/
def child? (e : PathElement) (t : DescriptionTree) : Option DescriptionTree :=
  t.children.find? fun child => child.element == e

mutual

def flatten (parent : Address) : DescriptionTree -> List (Address × ResourceDescription)
  | .node description children =>
      let a := parent.child description.element
      (a, description) :: flattenAll a children

def flattenAll (parent : Address) :
    List DescriptionTree -> List (Address × ResourceDescription)
  | [] => []
  | t :: rest => flatten parent t ++ flattenAll parent rest

end

end DescriptionTree
end MixedDomain
