import MixedDomain.Proofs.Hop.Direct

/-!
# Resources in built-in hops

## Building and reporting

A computation that builds the target tree reports when it does so on every target
tree.  What puts a resource into the tree may fail, but it leaves the context as it
is.

## Hops

Placing a resource and what is below it reports because its parts do, whatever is
withheld and whatever fails on the way.  So does the transformation of a resource
by a built-in hop.
-/

namespace MixedDomain
namespace PlaceM

variable {result next : Type}

/-- Whether a computation only reports, on every target tree. -/
def Reports (m : PlaceM result) : Prop :=
  forall tree, TransformM.Reports (StateT.run m tree)

theorem reports_pure (x : result) : Reports (pure x) :=
  fun _ => TransformM.reports_pure _

theorem reports_bind {m : PlaceM result} {k : result -> PlaceM next} (hm : Reports m)
    (hk : forall x, Reports (k x)) : Reports (m >>= k) := by
  intro tree
  rw [StateT.run_bind]
  apply TransformM.reports_bind (hm tree)
  intro ending
  exact hk ending.1 ending.2

theorem reports_lift {m : TransformM result} (hm : TransformM.Reports m) :
    Reports (monadLift m) :=
  fun _ => TransformM.reports_bind hm fun _ => TransformM.reports_pure _

theorem reports_get_bind {k : Context -> PlaceM result} (hfresh : forall c, k c.fresh = k c)
    (hk : forall c, Reports (k c)) :
    Reports ((monadLift (get : TransformM Context) : PlaceM Context) >>= k) := by
  intro tree c
  have hrun : forall c : Context,
      TransformM.run (StateT.run ((monadLift (get : TransformM Context) : PlaceM Context) >>= k)
        tree) c = TransformM.run (StateT.run (k c) tree) c := fun _ => rfl
  rw [hrun, hrun, hfresh c]
  exact hk c tree c

theorem reports_movedTo (a : Address) {m : PlaceM result} (hm : Reports m) :
    Reports (movedTo a m) :=
  fun tree => TransformM.reports_movedTo a (hm tree)

theorem reports_putAt (target : Address) (r : Resource) : Reports (putAt target r) := by
  intro tree
  simp only [putAt, StateT.run]
  split
  · exact TransformM.reports_pure _
  · split
    · exact TransformM.reports_pure _
    · exact TransformM.reports_throw _

end PlaceM

theorem Placement.reports_run {placement : Placement} (hb : placement.IsBuiltIn)
    (targetOf : Address -> Address) (a : Address) (r : Resource) {children : PlaceM Unit}
    (hchildren : PlaceM.Reports children) :
    PlaceM.Reports (placement.run targetOf a r children) := by
  cases placement with
  | plain => exact PlaceM.reports_bind (PlaceM.reports_putAt _ _) fun _ => hchildren
  | discardUndefined names =>
      apply PlaceM.reports_bind (PlaceM.reports_lift (reports_checkNewAttributes a _))
      intro _
      exact PlaceM.reports_bind (PlaceM.reports_putAt _ _) fun _ => hchildren
  | apply place => exact hb.elim

namespace Hop

variable {h : Hop} {a : Address}

theorem reports_placeResource_of_children (hb : h.IsBuiltIn) {model : Value}
    {children : List (PathElement × Resource)}
    (hchildren : PlaceM.Reports (placeChildren h a children)) :
    PlaceM.Reports (placeResource h a (.node model children)) := by
  cases hd : h.description? a with
  | none =>
      simp only [placeResource, hd]
      exact PlaceM.reports_putAt _ _
  | some d =>
      have hbuilt := isBuiltIn_of_description? hb (ne_nil_of_description? hb hd) hd
      simp only [placeResource, hd]
      apply PlaceM.reports_get_bind
      · intro c
        simp only [decide_eq_of_isBuiltIn hbuilt a c.fresh c]
      · intro c
        cases d.withholding.decide a c with
        | silent => exact PlaceM.reports_pure ()
        | rejectAndWarn => exact PlaceM.reports_lift (reports_warnNotSent a)
        | never =>
            apply PlaceM.reports_movedTo
            apply PlaceM.reports_bind (PlaceM.reports_lift (d.reports_transformModel hbuilt a model))
            intro model
            exact Placement.reports_run (d.isBuiltIn_placement hbuilt) _ a _ hchildren

mutual

theorem reports_placeResource (hb : h.IsBuiltIn) (a : Address) : (r : Resource) ->
    PlaceM.Reports (placeResource h a r)
  | .node _ children => reports_placeResource_of_children hb (reports_placeChildren hb a children)

theorem reports_placeChildren (hb : h.IsBuiltIn) (a : Address) :
    (children : List (PathElement × Resource)) -> PlaceM.Reports (placeChildren h a children)
  | [] => PlaceM.reports_pure ()
  | (e, child) :: rest =>
      PlaceM.reports_bind (reports_placeResource hb (a.child e) child)
        fun _ => reports_placeChildren hb a rest

end

theorem withheldAlong_above_fresh (hb : h.IsBuiltIn) (a : Address) (c : Context) :
    withheldAlong a c.fresh (h.above a) = withheldAlong a c (h.above a) := by
  apply withheldAlong_congr
  intro node hnode
  exact (isBuiltIn_of_mem_along hb (List.mem_filter.mp hnode).1).withholding

theorem reports_transformResource (hb : h.IsBuiltIn) (a : Address) (r : Resource) :
    TransformM.Reports (h.transformResource a r) := by
  apply TransformM.reports_get_bind
  · intro c
    simp only [withheldAlong_above_fresh hb]
  · intro c
    cases withheldAlong a c (h.above a) with
    | silent => exact TransformM.reports_pure none
    | rejectAndWarn =>
        exact TransformM.reports_bind (reports_warnNotSent a) fun _ => TransformM.reports_pure none
    | never =>
        apply TransformM.reports_bind (reports_placeResource hb a r _)
        intro ending
        exact TransformM.reports_pure _

end Hop
end MixedDomain
