import MixedDomain.Description.Basic

/-!
# Hops

## From one version to an older one

A hop transforms a subsystem from one version to an older one.  Its descriptions
are stored by address pattern, so that the description of a resource is found by
its address, elements before wildcards.

## Addresses

The address of a resource on the target is made step by step.  From the first
element on that has no node, the address stays as it is.
-/

namespace MixedDomain

/-- The descriptions of a subsystem by address pattern. -/
structure Hop where
  subsystem : String
  descriptions : Trie ResourceDescription

namespace Hop

def ofTree (t : DescriptionTree) : Hop :=
  { subsystem := t.element.value
    descriptions :=
      (t.flatten Address.root).foldl (fun trie node => trie.insert node.1 node.2) Trie.empty }

def description? (a : Address) (h : Hop) : Option ResourceDescription :=
  h.descriptions.get? a

/-- The address on the target, from a node of the descriptions on. -/
def targetFrom : Address -> Trie ResourceDescription -> Address -> Address
  | [], _, transformed => transformed
  | e :: rest, node, transformed =>
      match node.child? e with
      | none => transformed ++ e :: rest
      | some next =>
          match next.here? with
          | some d => targetFrom rest next (d.targetBelow e transformed)
          | none => targetFrom rest next (transformed.child e)

def targetOf (h : Hop) (a : Address) : Address :=
  targetFrom a h.descriptions Address.root

/-- The first description on the way that withholds what is below it, and how. -/
def withheldAlong (a : Address) (c : Context) :
    List (Nat × ResourceDescription) -> Withholding
  | [] => .never
  | (depth, d) :: rest =>
      match d.withholding.decide (a.slice 0 depth) c with
      | .never => withheldAlong a c rest
      | withholding => withholding

/-!
# Operations
-/

def transformerAt (a : Address) (operation : Value) (along : List (Nat × ResourceDescription)) :
    Except ValueError Transformer :=
  match along.getLast? with
  | some (depth, d) =>
      if depth = a.length then
        (Operation.name operation).map d.transformerOf
      else
        .ok .pass
  | none => .ok .pass

def redirect (a target : Address) (o : Outcome) : Except ValueError Outcome :=
  if target = a then
    .ok o
  else
    o.mapOperation fun operation => operation.set Operation.addressKey target.toValue

/-- Transforms an operation on the resource at an address.  What withholds a resource above
decides about everything below. -/
def transformOperation (h : Hop) (a : Address) (operation : Value) : TransformM Outcome := do
  let c ← get
  let along := h.descriptions.along a
  match withheldAlong a c along with
  | .silent => return Outcome.discarded
  | .rejectAndWarn => Transformer.rejectOperation none a operation
  | .never =>
      let transformer ← TransformM.ofValue (transformerAt a operation along)
      let outcome ← transformer.run a operation
      TransformM.ofValue (redirect a (h.targetOf a) outcome)

end Hop
end MixedDomain
