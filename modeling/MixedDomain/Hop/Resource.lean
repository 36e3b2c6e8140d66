import MixedDomain.Hop.Basic

/-!
# Transforming resources by a hop

## From the top

The resource at an address and those below it are transformed into a target tree.
A resource without description is put there as it is, with everything below it.
For any other its description says whether it is withheld, how its model is
transformed, and how it is placed.
-/

namespace MixedDomain
namespace Hop

def notSentMessage (t : Target) (a : Address) : String :=
  "Resource at '" ++ a.text ++ "' is not understood by " ++ t.label ++ " and was not sent"

def warnNotSent (a : Address) : TransformM Unit := do
  let c ← get
  TransformM.warn (notSentMessage c.target a)

mutual

def placeResource (h : Hop) (a : Address) : Resource -> PlaceM Unit
  | .node model children =>
      match h.description? a with
      | none => PlaceM.putAt (h.targetOf a) (.node model children)
      | some d => do
          let c ← (get : TransformM Context)
          match d.withholding.decide a c with
          | .silent => return ()
          | .rejectAndWarn => (warnNotSent a : TransformM Unit)
          | .never =>
              PlaceM.movedTo a do
                let model ← (d.transformModel a model : TransformM Value)
                (d.placement?.getD .plain).run h.targetOf a (.node model children)
                  (placeChildren h a children)

def placeChildren (h : Hop) (a : Address) : List (PathElement × Resource) -> PlaceM Unit
  | [] => pure ()
  | (e, child) :: rest => do
      placeResource h (a.child e) child
      placeChildren h a rest

end

def above (h : Hop) (a : Address) : List (Nat × ResourceDescription) :=
  (h.descriptions.along a).filter fun node => node.1 != a.length

def taken? (target : Address) (tree : Resource) : Option Resource :=
  tree.navigate? target

/-- Transforms the resource at an address and those below it; nothing if it is withheld. -/
def transformResource (h : Hop) (a : Address) (r : Resource) : TransformM (Option Resource) := do
  let c ← get
  match withheldAlong a c (h.above a) with
  | .silent => return none
  | .rejectAndWarn =>
      warnNotSent a
      return none
  | .never =>
      let target := h.targetOf a
      let ancestors := Resource.empty.addAlong (Address.parent target)
      let (_, tree) ← (placeResource h a r).run ancestors
      return taken? target tree

end Hop
end MixedDomain
