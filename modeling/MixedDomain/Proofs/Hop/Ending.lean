import MixedDomain.Proofs.Hop.Direct
import MixedDomain.Proofs.Hop.Reaching
import MixedDomain.Proofs.Hop.Withholding

/-!
# How a transformation of resources ends

## Below what is reached

To place a resource whose parent is reached fails with the first failure of the
listing, and otherwise it leaves the warnings of the listing in the context.  The
induction is over the resource; what is placed first does not take the parent of
the next one away.

## From the top

A transformation begins with what withholds the resource from above.  If nothing
does, its parent is reached or has no description.
-/

namespace MixedDomain
namespace Hop

open PlaceM

variable {h : Hop} {a : Address} {c c₀ : Context} {e : PathElement} {d : ResourceDescription}
  {model : Value} {children : List (PathElement × Resource)} {tree : Resource}

def EndsAsListed (h : Hop) (c₀ : Context) (r : Resource) : Prop :=
  forall {a : Address} {e : PathElement} {tree : Resource} {c : Context},
    h.reaches c₀ a = true -> c.fresh = c₀.fresh -> (tree.navigate? (h.targetOf a)).isSome ->
    (∀ x ∈ r.listing (a.child e), x.2.HasDistinctNames) ->
    EndsAs (placeResource h (a.child e) r) tree c
      ((r.listing (a.child e)).findSome? (h.failureAt? c₀))
      ((r.listing (a.child e)).flatMap (h.warningsAt c₀))

def ChildrenEndAsListed (h : Hop) (c₀ : Context) (children : List (PathElement × Resource)) : Prop :=
  forall {a : Address} {tree : Resource} {c : Context},
    h.reaches c₀ a = true -> c.fresh = c₀.fresh -> (tree.navigate? (h.targetOf a)).isSome ->
    (∀ x ∈ Resource.listingOfChildren a children, x.2.HasDistinctNames) ->
    EndsAs (placeChildren h a children) tree c
      ((Resource.listingOfChildren a children).findSome? (h.failureAt? c₀))
      ((Resource.listingOfChildren a children).flatMap (h.warningsAt c₀))

theorem childrenEndAsListed_nil (h : Hop) (c₀ : Context) : h.ChildrenEndAsListed c₀ [] := by
  intro a tree c _ _ _ _
  exact endsAs_pure tree c

theorem childrenEndAsListed_cons (hb : h.IsBuiltIn) {child : Resource}
    {rest : List (PathElement × Resource)} (hchild : h.EndsAsListed c₀ child)
    (hrest : h.ChildrenEndAsListed c₀ rest) : h.ChildrenEndAsListed c₀ ((e, child) :: rest) := by
  intro a tree c hreached hfresh hthere hmodels
  rw [Resource.listingOfChildren] at hmodels ⊢
  rw [List.findSome?_append, List.flatMap_append]
  apply EndsAs.bind
  · apply hchild hreached hfresh hthere
    intro x hx
    exact hmodels x (List.mem_append_left _ hx)
  · intro mid hfirst
    have habove : withheldAlong (a.child e) c₀ (h.above (a.child e)) = .never :=
      (withheldAlong_above_child hb).trans (withholding_of_reaches hb hreached)
    rcases placesResource hb c₀ child (Address.child_ne_nil a e) (targetOf_child hb a e) habove
      hfresh hthere hfirst with ⟨hfresh', _, _, hupdate⟩
    have hmid : (mid.navigate? (h.targetOf a)).isSome := by
      rw [Resource.navigate?_of_updateAt? hupdate, Option.isSome_map]
      exact hthere
    apply hrest hreached hfresh' hmid
    intro x hx
    exact hmodels x (List.mem_append_right _ hx)

theorem runOn_placeResource_of_sent (hd : h.description? a = some d)
    (hw : d.withholding.decide a c = .never) :
    runOn (placeResource h a (.node model children)) tree c =
      runOn (movedTo a do
        let model ← (d.transformModel a model : TransformM Value)
        (d.placement?.getD .plain).run h.targetOf a (.node model children)
          (placeChildren h a children)) tree c := by
  have hget : TransformM.run get c = (.ok c, c) := by
    rfl
  simp only [placeResource, hd]
  rw [runOn_bind_of_run hget, hw]

/-- A resource that is sent ends as its own description says, and then as its children do. -/
theorem endsAsListed_of_sent (hb : h.IsBuiltIn) (hreached : h.reaches c₀ a = true)
    (hd : h.description? (a.child e) = some d) (hw : d.withholding.decide (a.child e) c₀ = .never)
    (hfresh : c.fresh = c₀.fresh) (hthere : (tree.navigate? (h.targetOf a)).isSome)
    (hchildren : h.ChildrenEndAsListed c₀ children)
    (hmodels : ∀ x ∈ Resource.listing (a.child e) (.node model children), x.2.HasDistinctNames) :
    EndsAs (do
      let model ← (d.transformModel (a.child e) model : TransformM Value)
      (d.placement?.getD .plain).run h.targetOf (a.child e) (.node model children)
        (placeChildren h (a.child e) children)) tree c
      ((Resource.listing (a.child e) (.node model children)).findSome? (h.failureAt? c₀))
      ((Resource.listing (a.child e) (.node model children)).flatMap (h.warningsAt c₀)) := by
  have hbuilt := isBuiltIn_of_description? hb (Address.child_ne_nil a e) hd
  have htarget := targetOf_child hb a e
  have hchild : h.reaches c₀ (a.child e) = true := by
    rw [reaches_child, hreached, sends_of_description? hd, hw]
    rfl
  have hown : h.warningsAt c₀ (a.child e, model) = d.warnings (a.child e) model c := by
    rw [warningsAt_child hreached, hd, ResourceDescription.warnings_congr hbuilt hfresh]
    simp [ownWarnings, hw]
  rw [Resource.listing] at hmodels ⊢
  rw [List.findSome?_cons_eq_or, List.flatMap_cons, failureAt?_child_of_sent hreached hd hw, hown,
    ← ResourceDescription.failure?_congr hbuilt hfresh]
  apply ResourceDescription.endsAs_sent hbuilt htarget (hmodels _ List.mem_cons_self) hthere
  intro mid c' r hkept hput
  have hplaced : (mid.navigate? (h.targetOf (a.child e))).isSome := by
    rw [htarget]
    exact Resource.isSome_navigate?_register hthere hput
  apply hchildren hchild (hkept.trans hfresh) hplaced
  intro x hx
  exact hmodels x (List.mem_cons_of_mem _ hx)

/-- A resource that is not sent is left out, or put as it is. -/
theorem endsAsListed_of_not_sent (hb : h.IsBuiltIn) (hreached : h.reaches c₀ a = true)
    (hno : h.sends c₀ (a.child e) = false) (hfresh : c.fresh = c₀.fresh)
    (hthere : (tree.navigate? (h.targetOf a)).isSome) :
    EndsAs (placeResource h (a.child e) (.node model children)) tree c
      ((Resource.listing (a.child e) (.node model children)).findSome? (h.failureAt? c₀))
      ((Resource.listing (a.child e) (.node model children)).flatMap (h.warningsAt c₀)) := by
  rcases listing_of_not_sent hreached hno model children with ⟨hfailure, hwarnings⟩
  rw [hfailure, hwarnings]
  cases hd : h.description? (a.child e) with
  | none =>
      simp only [placeResource, hd, targetOf_child hb a e]
      exact endsAs_putAt _ hthere
  | some d =>
      have hbuilt := isBuiltIn_of_description? hb (Address.child_ne_nil a e) hd
      have hwithheld : d.withholding.decide (a.child e) c ≠ .never := by
        rw [decide_eq_of_isBuiltIn hbuilt _ c c₀]
        simpa [sends_of_description? hd] using hno
      refine ⟨tree, ?_⟩
      rw [runOn_placeResource_of_withheld hd rfl hwithheld, decide_eq_of_isBuiltIn hbuilt _ c c₀,
        Option.map_some, Option.getD_some, ownWarnings, ← Context.target_eq_of_fresh hfresh]
      rw [decide_eq_of_isBuiltIn hbuilt _ c c₀] at hwithheld
      cases hw : d.withholding.decide (a.child e) c₀ with
      | never => exact absurd hw hwithheld
      | silent => rw [Context.reporting_nil]; rfl
      | rejectAndWarn => rfl

theorem endsAsListed_node (hb : h.IsBuiltIn) (hchildren : h.ChildrenEndAsListed c₀ children) :
    h.EndsAsListed c₀ (.node model children) := by
  intro a e tree c hreached hfresh hthere hmodels
  cases hsends : h.sends c₀ (a.child e) with
  | false => exact endsAsListed_of_not_sent hb hreached hsends hfresh hthere
  | true =>
      rcases exists_description?_of_sends hsends with ⟨d, hd, hw⟩
      have hbuilt := isBuiltIn_of_description? hb (Address.child_ne_nil a e) hd
      apply EndsAs.of_runOn_eq (runOn_placeResource_of_sent hd
        ((decide_eq_of_isBuiltIn hbuilt _ c c₀).trans hw))
      exact EndsAs.movedTo (endsAsListed_of_sent hb hreached hd hw
        ((Context.fresh_moveTo _ c).trans hfresh) hthere hchildren hmodels)

mutual

theorem endsAsListed (hb : h.IsBuiltIn) (c₀ : Context) : (r : Resource) -> h.EndsAsListed c₀ r
  | .node _ children => endsAsListed_node hb (childrenEndAsListed hb c₀ children)

theorem childrenEndAsListed (hb : h.IsBuiltIn) (c₀ : Context) :
    (children : List (PathElement × Resource)) -> h.ChildrenEndAsListed c₀ children
  | [] => childrenEndAsListed_nil h c₀
  | (_, child) :: rest =>
      childrenEndAsListed_cons hb (endsAsListed hb c₀ child) (childrenEndAsListed hb c₀ rest)

end

/-!
# From the top
-/

/-- Whether transforming a resource ends with a failure if there is one, and with nothing but
warnings otherwise. -/
def TransformEndsAs (h : Hop) (a : Address) (r : Resource) (c : Context)
    (failure? : Option TransformError) (warnings : List String) : Prop :=
  match failure? with
  | some e => (TransformM.run (h.transformResource a r) c).1 = .error e
  | none => exists out?,
      TransformM.run (h.transformResource a r) c = (.ok out?, c.reporting warnings)

def transformWarnings (h : Hop) (c : Context) (a : Address) (r : Resource) : List String :=
  if h.firstWithholding? a.parent c = some .rejectAndWarn then [notSentMessage c.target a]
  else (r.listing a).flatMap (h.warningsAt c)

variable {r : Resource} {failure? : Option TransformError} {warnings : List String}

theorem transformWarnings_child (h : Hop) (c : Context) (a : Address) (e : PathElement)
    (r : Resource) :
    h.transformWarnings c (a.child e) r =
      if h.withholding a c = .rejectAndWarn then [notSentMessage c.target (a.child e)]
      else (r.listing (a.child e)).flatMap (h.warningsAt c) := by
  have hfirst : h.firstWithholding? a c = some .rejectAndWarn ↔
      h.withholding a c = .rejectAndWarn :=
    firstWithholding?_eq_some_iff (by simp)
  simp only [transformWarnings, Address.parent_child, hfirst]

theorem transformEndsAs_of_endsAs (hnever : withheldAlong a c (h.above a) = .never)
    (hends : EndsAs (placeResource h a r)
      (Resource.empty.addAlong (Address.parent (h.targetOf a))) c failure? warnings) :
    h.TransformEndsAs a r c failure? warnings := by
  unfold TransformEndsAs
  rw [transformResource, TransformM.run_get_bind, hnever]
  cases failure? with
  | some error => exact TransformM.run_bind_fst_of_error hends
  | none =>
      rcases hends with ⟨tree, hplace⟩
      rw [TransformM.run_bind_of_ok hplace]
      exact ⟨taken? (h.targetOf a) tree, rfl⟩

/-- Below what is not withheld, a resource is either reached by its parent or put as it is. -/
theorem endsAs_placeResource (hb : h.IsBuiltIn) (hnever : h.withholding a c = .never)
    (hmodels : ∀ x ∈ r.listing (a.child e), x.2.HasDistinctNames)
    (hthere : (tree.navigate? (h.targetOf a)).isSome) :
    EndsAs (placeResource h (a.child e) r) tree c
      ((r.listing (a.child e)).findSome? (h.failureAt? c))
      ((r.listing (a.child e)).flatMap (h.warningsAt c)) := by
  cases hreached : h.reaches c a with
  | true => exact endsAsListed hb c r hreached rfl hthere hmodels
  | false =>
      have hne : a ≠ [] := by
        rintro rfl
        cases hreached
      have hundescribed : h.description? (a.child e) = none :=
        description?_append_eq_none hb hne (description?_of_not_reaches hb hnever hreached) [e]
      rw [findSome?_below hreached fun x hx => below_of_mem_listing hx,
        flatMap_below hreached fun x hx => below_of_mem_listing hx]
      rcases r with ⟨model, children⟩
      simp only [placeResource, hundescribed, targetOf_child hb a e]
      exact endsAs_putAt _ hthere

/-- What is withheld from above is left out, and nothing below it is met. -/
theorem transformEndsAs_of_withheld (hb : h.IsBuiltIn) (hwithheld : h.withholding a c ≠ .never)
    (r : Resource) :
    h.TransformEndsAs (a.child e) r c ((r.listing (a.child e)).findSome? (h.failureAt? c))
      (h.transformWarnings c (a.child e) r) := by
  have hno : h.reaches c a = false := by
    cases hreached : h.reaches c a with
    | false => rfl
    | true => exact absurd (withholding_of_reaches hb hreached) hwithheld
  have hchild : h.withholding (a.child e) c = h.withholding a c := by
    rw [withholding_child hb]
    cases hw : h.withholding a c with
    | never => exact absurd hw hwithheld
    | silent => rfl
    | rejectAndWarn => rfl
  rw [transformWarnings_child, findSome?_below hno fun x hx => below_of_mem_listing hx,
    flatMap_below hno fun x hx => below_of_mem_listing hx]
  refine ⟨none, ?_⟩
  rw [run_transformResource_of_withheld hb (Address.child_ne_nil a e) hchild hwithheld]
  cases hw : h.withholding a c with
  | never => exact absurd hw hwithheld
  | silent => simp [afterWithholding, Context.reporting_nil]
  | rejectAndWarn => rfl

/-- A transformation fails with the first failure of the listing, and otherwise it leaves its
warnings in the context. -/
theorem transformEndsAs (hb : h.IsBuiltIn) (ha : a ≠ [])
    (hmodels : ∀ x ∈ r.listing a, x.2.HasDistinctNames) :
    h.TransformEndsAs a r c ((r.listing a).findSome? (h.failureAt? c))
      (h.transformWarnings c a r) := by
  rcases Address.exists_eq_child ha with ⟨parent, e, rfl⟩
  by_cases hnever : h.withholding parent c = .never
  · have hnone : h.withholding parent c ≠ .rejectAndWarn := by
      simp [hnever]
    rw [transformWarnings_child, if_neg hnone]
    apply transformEndsAs_of_endsAs ((withheldAlong_above_child hb).trans hnever)
    apply endsAs_placeResource hb hnever hmodels
    rw [targetOf_child hb, Address.parent_child, Resource.navigate?_addAlong_empty]
    rfl
  · exact transformEndsAs_of_withheld hb hnever r

end Hop
end MixedDomain
