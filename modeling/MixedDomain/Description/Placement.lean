import MixedDomain.Transformer

/-!
# Placing resources in the target tree

## The target tree

A resource and what is below it are transformed from the top into a new tree.  A
resource is put into it below a parent that must be there already.

## Placements

A placement says what happens to a resource whose model has been transformed: as
a rule its model is put into the target tree and its children are transformed in
turn.
-/

namespace MixedDomain

abbrev PlaceM :=
  StateT Resource TransformM

namespace PlaceM

/-- Runs a computation at another address and comes back afterwards, also after a failure. -/
def movedTo {result : Type} (a : Address) (m : PlaceM result) : PlaceM result :=
  fun tree => TransformM.movedTo a (m tree)

/-- Puts a resource at an address of the target tree; the root is replaced as a whole. -/
def putAt (target : Address) (r : Resource) : PlaceM Unit :=
  fun tree =>
    match target.getLast? with
    | none => return ((), r)
    | some e =>
        match tree.updateAt? (fun parent => parent.register e r) (Address.parent target) with
        | some tree => return ((), tree)
        | none =>
            throw (.failed ("No transformed parent at '" ++ (Address.parent target).text
              ++ "' for resource '" ++ target.text ++ "'"))

end PlaceM

def Resource.addAlong : Address -> Resource -> Resource
  | [], r => r
  | e :: rest, r => r.register e (addAlong rest ((r.child? e).getD Resource.empty))

/-- What happens to a resource whose model has been transformed. -/
inductive Placement where
  /-- The model is put into the target tree, and the children are transformed. -/
  | plain
  /-- New attributes are discarded first; if the target is known not to ignore the resource, there
  must be no defined ones. -/
  | discardUndefined (names : List String)
  /-- A placement of its own.  It is given the way from addresses to those on the target, the
  address and the resource, and the transformation of the children. -/
  | apply (place : (Address -> Address) -> Address -> Resource -> PlaceM Unit -> PlaceM Unit)

namespace Placement

def subsystemName (a : Address) : String :=
  (Address.subsystem? a).getD ""

/-- The version of that subsystem on the target, or else of the core model. -/
def subsystemVersion (t : Target) (a : Address) : ModelVersion :=
  (t.subsystemVersion? (subsystemName a)).getD t.coreVersion

def newAttributesWarning (t : Target) (a : Address) (defined : List String) : String :=
  "Attributes " ++ RejectCheck.bracketed defined ++ " at '" ++ a.text ++ "' are not understood by "
    ++ t.label ++ " (subsystem '" ++ subsystemName a ++ "' version "
    ++ (subsystemVersion t a).text ++ "); the target may ignore this resource"

/-- Refuses new attributes that are defined, or warns of them if the target may ignore the
resource. -/
def checkNewAttributes (a : Address) (defined : List String) : TransformM Unit := do
  let c ← get
  let t := c.target
  if defined.isEmpty then
    return ()
  else if t.managesIgnored then
    throw (.notUnderstood defined a.text t.hostName (subsystemName a) (subsystemVersion t a).text)
  else
    TransformM.warn (newAttributesWarning t a defined)

/-- Places a resource, given the transformation of its children. -/
def run (placement : Placement) (targetOf : Address -> Address) (a : Address) (r : Resource)
    (children : PlaceM Unit) : PlaceM Unit :=
  match placement with
  | .plain => do
      PlaceM.putAt (targetOf a) (Resource.ofModel r.model)
      children
  | .discardUndefined names => do
      let (model, defined) := discardUndefinedFrom names r.model
      checkNewAttributes a defined
      PlaceM.putAt (targetOf a) (Resource.ofModel model)
      children
  | .apply place => place targetOf a r children

end Placement
end MixedDomain
