import Mathlib.Data.List.Forall2
import MixedDomain.Proofs.Hop.Direct

/-!
# Resources that survive a hop

## Survivors

A resource that is not withheld survives unless at some level of its address a
later sibling, which is not withheld either, is put at the same element: adding a
child replaces the one that is there.

## Counting

What a hop makes of a resource consists of its survivors, each at its address on
the target with its own transformed model.  When no two children are put at one
element, all that is not withheld survives.
-/

namespace MixedDomain
namespace Hop

/-- The elements on the target of the children that are not withheld, in order. -/
def sentElements (h : Hop) (c : Context) (a : Address)
    (children : List (PathElement × Resource)) : List PathElement :=
  (children.filter fun pair => h.withholding (a.child pair.1) c = .never).map
    fun pair => h.elementOnTarget a pair.1

mutual

def survivors (h : Hop) (c : Context) (a : Address) : Resource -> List (Address × Value)
  | .node model children =>
      if h.withholding a c = .never then (a, model) :: survivorsBelow h c a children else []

def survivorsBelow (h : Hop) (c : Context) (a : Address) :
    List (PathElement × Resource) -> List (Address × Value)
  | [] => []
  | (e, child) :: rest =>
      (if h.elementOnTarget a e ∈ h.sentElements c a rest then []
        else survivors h c (a.child e) child)
      ++ survivorsBelow h c a rest

end

def modelOnTarget (h : Hop) (c : Context) (a : Address) (model : Value) :
    Except TransformError Value :=
  match h.description? a with
  | none => .ok model
  | some d => modelAfterRules d a model c

def Becomes (h : Hop) (c : Context) (x y : Address × Value) : Prop :=
  y.1 = h.targetOf x.1 ∧ h.modelOnTarget c x.1 x.2 = .ok y.2

/-- At every level the children that are not withheld are put at distinct elements. -/
inductive Separated (h : Hop) (c : Context) : Address -> Resource -> Prop where
  | node {a : Address} {model : Value} {children : List (PathElement × Resource)} :
      (h.sentElements c a children).Nodup ->
      (∀ pair ∈ children, Separated h c (a.child pair.1) pair.2) ->
      Separated h c a (.node model children)

variable {h : Hop} {c : Context} {a : Address}

theorem sentElements_cons_of_sent {e : PathElement} {child : Resource}
    (hsent : h.withholding (a.child e) c = .never) (rest : List (PathElement × Resource)) :
    h.sentElements c a ((e, child) :: rest) = h.elementOnTarget a e :: h.sentElements c a rest := by
  simp [sentElements, hsent]

theorem sentElements_cons_of_withheld {e : PathElement} {child : Resource}
    (hwithheld : h.withholding (a.child e) c ≠ .never) (rest : List (PathElement × Resource)) :
    h.sentElements c a ((e, child) :: rest) = h.sentElements c a rest := by
  simp [sentElements, hwithheld]

theorem survivors_of_withheld (hwithheld : h.withholding a c ≠ .never) (r : Resource) :
    h.survivors c a r = [] := by
  rcases r with ⟨model, children⟩
  simp [survivors, hwithheld]

/-!
# Copied subtrees
-/

theorem sentElements_of_undescribed (hb : h.IsBuiltIn) (ha : a ≠ [])
    (hd : h.description? a = none) (hsent : h.withholding a c = .never)
    (children : List (PathElement × Resource)) :
    h.sentElements c a children = ElementMap.elements children := by
  have hall : forall e, h.withholding (a.child e) c = .never := by
    intro e
    rw [Address.child, withholding_append_of_undescribed hb ha hd, hsent]
  simp [sentElements, ElementMap.elements, hall, elementOnTarget_of_undescribed hb ha hd]

mutual

/-- Below an address without description everything survives as it is. -/
theorem survivors_of_undescribed (hb : h.IsBuiltIn) : (r : Resource) -> forall {a : Address},
    a ≠ [] -> h.description? a = none -> h.withholding a c = .never -> r.Ordered ->
      List.Forall₂ (h.Becomes c) (h.survivors c a r) (r.listing (h.targetOf a))
  | .node model children, a, ha, hd, hsent, hordered => by
      have hown : h.Becomes c (a, model) (h.targetOf a, model) :=
        ⟨rfl, by simp [modelOnTarget, hd]⟩
      simp only [survivors, hsent, if_true, Resource.listing]
      exact .cons hown (survivorsBelow_of_undescribed hb children ha hd hsent
        hordered.children.nodup fun pair hpair => hordered.of_mem hpair)

theorem survivorsBelow_of_undescribed (hb : h.IsBuiltIn) :
    (children : List (PathElement × Resource)) -> forall {a : Address},
    a ≠ [] -> h.description? a = none -> h.withholding a c = .never ->
      (ElementMap.elements children).Nodup -> (∀ pair ∈ children, pair.2.Ordered) ->
      List.Forall₂ (h.Becomes c) (h.survivorsBelow c a children)
        (Resource.listingOfChildren (h.targetOf a) children)
  | [], _, _, _, _, _, _ => .nil
  | (e, child) :: rest, a, ha, hd, hsent, hnodup, hordered => by
      rcases List.nodup_cons.mp hnodup with ⟨hfresh, hrest⟩
      have hkept : h.elementOnTarget a e ∉ h.sentElements c a rest := by
        rw [sentElements_of_undescribed hb ha hd hsent, elementOnTarget_of_undescribed hb ha hd]
        exact hfresh
      have hchild : h.description? (a.child e) = none := description?_append_eq_none hb ha hd [e]
      have hsentChild : h.withholding (a.child e) c = .never := by
        rw [Address.child, withholding_append_of_undescribed hb ha hd, hsent]
      have htarget : (h.targetOf a).child e = h.targetOf (a.child e) :=
        (targetOf_append_of_undescribed hb ha hd [e]).symm
      simp only [survivorsBelow, if_neg hkept, Resource.listingOfChildren, htarget]
      exact List.rel_append
        (survivors_of_undescribed hb child (Address.child_ne_nil a e) hchild hsentChild
          (hordered (e, child) List.mem_cons_self))
        (survivorsBelow_of_undescribed hb rest ha hd hsent hrest
          fun pair hpair => hordered pair (List.mem_cons_of_mem _ hpair))

end

/-!
# Transformed trees
-/

theorem resourceOnTarget_eq_ok (hb : h.IsBuiltIn) (ha : a ≠ []) {model : Value}
    {children : List (PathElement × Resource)} {out? : Option Resource}
    (hout : h.resourceOnTarget c a (.node model children) = .ok out?) :
    (h.withholding a c ≠ .never ∧ out? = none) ∨
    (h.withholding a c = .never ∧ h.description? a = none ∧ out? = some (.node model children)) ∨
    (h.withholding a c = .never ∧ exists d model' placed, h.description? a = some d ∧
      modelAfterRules d a model c = .ok model' ∧ h.childrenOnTarget c a children = .ok placed ∧
      out? = some (Resource.ofChildren model' placed)) := by
  have hwithholding := withholding_eq_above (c := c) hb ha
  simp only [resourceOnTarget] at hout
  by_cases habove : withheldAlong a c (h.above a) = .never
  · have hfree := (isWithheldAbove_eq_false_iff ha).mpr habove
    rw [habove] at hwithholding
    rw [if_neg (Bool.eq_false_iff.mp hfree)] at hout
    cases hd : h.description? a with
    | none =>
        rw [hd] at hout hwithholding
        cases hout
        exact Or.inr (Or.inl ⟨hwithholding, rfl, rfl⟩)
    | some d =>
        rw [hd] at hout hwithholding
        by_cases hown : d.withholding.decide a c = .never
        · simp only [hown, ne_eq, not_true_eq_false, if_false] at hout
          rcases Except.bind_eq_ok hout with ⟨model', hmodel, hrest⟩
          rcases Except.bind_eq_ok hrest with ⟨placed, hplaced, hend⟩
          cases hend
          exact Or.inr (Or.inr
            ⟨hwithholding.trans hown, d, model', placed, rfl, hmodel, hplaced, rfl⟩)
        · simp only [if_pos hown] at hout
          cases hout
          exact Or.inl ⟨fun hnever => hown (hwithholding.symm.trans hnever), rfl⟩
  · have hwithheld := mt (isWithheldAbove_eq_false_iff ha).mp habove
    rw [if_pos (Bool.eq_true_of_not_eq_false hwithheld)] at hout
    cases hout
    refine Or.inl ⟨?_, rfl⟩
    cases hw : withheldAlong a c (h.above a) with
    | never => exact absurd hw habove
    | silent => simp [hwithholding, hw]
    | rejectAndWarn => simp [hwithholding, hw]

theorem isSome_of_resourceOnTarget (hb : h.IsBuiltIn) (ha : a ≠ []) {r : Resource}
    {out? : Option Resource} (hout : h.resourceOnTarget c a r = .ok out?) :
    out?.isSome ↔ h.withholding a c = .never := by
  rcases r with ⟨model, children⟩
  rcases resourceOnTarget_eq_ok hb ha hout with
    ⟨hwithheld, rfl⟩ | ⟨hsent, _, rfl⟩ | ⟨hsent, _, _, _, _, _, _, rfl⟩
  · simp [hwithheld]
  · simp [hsent]
  · simp [hsent]

theorem listingOfChildren_ofChildren_perm (a : Address) (model : Value)
    (pairs : List (PathElement × Resource)) :
    (Resource.listingOfChildren a (ElementMap.lastAtEach pairs)).Perm
      (Resource.listingOfChildren a (Resource.ofChildren model pairs).children) := by
  simp only [Resource.listingOfChildren_eq_flatMap]
  exact (ElementMap.insertAll_perm pairs).symm.flatMap_right _

mutual

/-- What the recursion gives consists of the survivors, in some order. -/
theorem survivors_perm (hb : h.IsBuiltIn) : (r : Resource) -> forall {a : Address} {out : Resource},
    a ≠ [] -> r.Ordered -> h.resourceOnTarget c a r = .ok (some out) ->
      out.Ordered ∧ exists listed, listed.Perm (out.listing (h.targetOf a)) ∧
        List.Forall₂ (h.Becomes c) (h.survivors c a r) listed
  | .node model children, a, out, ha, hordered, hout => by
      rcases resourceOnTarget_eq_ok hb ha hout with
        ⟨_, hnone⟩ | ⟨hsent, hd, hsame⟩ | ⟨hsent, d, model', placed, hd, hmodel, hplaced, hbuilt⟩
      · cases hnone
      · cases hsame
        exact ⟨hordered, _, List.Perm.refl _, survivors_of_undescribed hb _ ha hd hsent hordered⟩
      · cases hbuilt
        obtain ⟨hbelow, _, listed, hperm, hbecomes⟩ :=
          survivorsBelow_perm hb children (fun pair hpair => hordered.of_mem hpair) hplaced
        have hown : h.Becomes c (a, model) (h.targetOf a, model') :=
          ⟨rfl, by simp [modelOnTarget, hd, hmodel]⟩
        refine ⟨Resource.ordered_ofChildren hbelow model', (h.targetOf a, model') :: listed, ?_, ?_⟩
        · exact (hperm.trans (listingOfChildren_ofChildren_perm _ model' placed)).cons _
        · simp only [survivors, hsent, if_true]
          exact .cons hown hbecomes

theorem survivorsBelow_perm (hb : h.IsBuiltIn) : (children : List (PathElement × Resource)) ->
    forall {a : Address} {placed : List (PathElement × Resource)},
    (∀ pair ∈ children, pair.2.Ordered) -> h.childrenOnTarget c a children = .ok placed ->
      (∀ pair ∈ placed, pair.2.Ordered) ∧
      ElementMap.elements placed = h.sentElements c a children ∧
      exists listed,
        listed.Perm (Resource.listingOfChildren (h.targetOf a) (ElementMap.lastAtEach placed)) ∧
        List.Forall₂ (h.Becomes c) (h.survivorsBelow c a children) listed
  | [], a, placed, _, hplaced => by
      cases hplaced
      exact ⟨fun _ hmem => (nomatch hmem), rfl, [], List.Perm.refl _, .nil⟩
  | (e, child) :: rest, a, placed, hordered, hplaced => by
      simp only [childrenOnTarget] at hplaced
      rcases Except.bind_eq_ok hplaced with ⟨out?, hout, hafter⟩
      rcases Except.bind_eq_ok hafter with ⟨others, hothers, hend⟩
      cases hend
      rcases survivorsBelow_perm hb rest
          (fun pair hpair => hordered pair (List.mem_cons_of_mem _ hpair)) hothers with
        ⟨hrest, helements, listed, hperm, hbecomes⟩
      have hsome := isSome_of_resourceOnTarget hb (Address.child_ne_nil a e) hout
      rw [targetOf_child hb a e]
      cases out? with
      | none =>
          have hwithheld : h.withholding (a.child e) c ≠ .never :=
            fun hsent => Bool.false_ne_true (hsome.mpr hsent)
          rw [placedAt_child_none, sentElements_cons_of_withheld hwithheld]
          refine ⟨hrest, helements, listed, hperm, ?_⟩
          simp only [survivorsBelow, survivors_of_withheld hwithheld, ite_self]
          exact hbecomes
      | some out =>
          rcases survivors_perm hb child (Address.child_ne_nil a e)
              (hordered (e, child) List.mem_cons_self) hout with
            ⟨hout', below, hbelow, hsurvive⟩
          rw [placedAt_child_some, sentElements_cons_of_sent (hsome.mp rfl), ← helements]
          refine ⟨?_, rfl, ?_⟩
          · intro pair hpair
            rcases List.mem_cons.mp hpair with rfl | hmem
            · exact hout'
            · exact hrest pair hmem
          · by_cases hlater : h.elementOnTarget a e ∈ h.sentElements c a rest
            · have hdropped := ElementMap.lastAtEach_cons_of_mem (x := out) (helements ▸ hlater)
              refine ⟨listed, ?_, ?_⟩
              · rw [List.singleton_append, hdropped]
                exact hperm
              · simp only [survivorsBelow, if_pos hlater]
                exact hbecomes
            · have hkept := ElementMap.lastAtEach_cons_of_not_mem (x := out) (helements ▸ hlater)
              refine ⟨below ++ listed, ?_, ?_⟩
              · rw [List.singleton_append, hkept]
                rw [targetOf_child hb a e] at hbelow
                exact hbelow.append hperm
              · simp only [survivorsBelow, if_neg hlater]
                exact List.rel_append hsurvive hbecomes

end

/-!
# Separated children
-/

theorem listing_filter_of_withheld (hb : h.IsBuiltIn) (hwithheld : h.withholding a c ≠ .never)
    (r : Resource) : ((r.listing a).filter fun x => h.withholding x.1 c = .never) = [] := by
  apply List.filter_eq_nil_iff.mpr
  intro x hx
  rcases Resource.exists_append_of_mem_listing r hx with ⟨b, hb'⟩
  simpa [hb'] using withholding_append_of_withheld hb hwithheld b

theorem survivorsBelow_of_separated {children : List (PathElement × Resource)}
    (hnodup : (h.sentElements c a children).Nodup)
    (hchildren : ∀ pair ∈ children, h.survivors c (a.child pair.1) pair.2 =
      (pair.2.listing (a.child pair.1)).filter fun x => h.withholding x.1 c = .never) :
    h.survivorsBelow c a children =
      (Resource.listingOfChildren a children).filter fun x => h.withholding x.1 c = .never := by
  induction children with
  | nil =>
      rfl
  | cons pair rest ih =>
      rcases pair with ⟨e, child⟩
      have hrest := fun hnodup' : (h.sentElements c a rest).Nodup =>
        ih hnodup' fun other hother => hchildren other (List.mem_cons_of_mem _ hother)
      have hchild := hchildren (e, child) List.mem_cons_self
      by_cases hsent : h.withholding (a.child e) c = .never
      · rw [sentElements_cons_of_sent hsent, List.nodup_cons] at hnodup
        simp only [survivorsBelow, if_neg hnodup.1, Resource.listingOfChildren, List.filter_append,
          hchild, hrest hnodup.2]
      · rw [sentElements_cons_of_withheld hsent] at hnodup
        have hnone := survivors_of_withheld hsent child
        simp only [survivorsBelow, hnone, ite_self, Resource.listingOfChildren, List.filter_append,
          ← hchild, hrest hnodup]

/-- When no two children are put at one element, all that is not withheld survives. -/
theorem survivors_of_separated (hb : h.IsBuiltIn) {r : Resource} (hr : h.Separated c a r) :
    h.survivors c a r = (r.listing a).filter fun x => h.withholding x.1 c = .never := by
  induction hr with
  | @node a model children hnodup _ ih =>
      by_cases hsent : h.withholding a c = .never
      · simp only [survivors, Resource.listing, List.filter_cons, hsent,
          decide_true, if_true]
        rw [survivorsBelow_of_separated hnodup ih]
      · rw [survivors_of_withheld hsent, listing_filter_of_withheld hb hsent]

/-!
# What a hop makes of a resource
-/

theorem exists_becomes {xs ys : List (Address × Value)}
    (hbecomes : List.Forall₂ (h.Becomes c) xs ys) {x : Address × Value} (hx : x ∈ xs) :
    ∃ y ∈ ys, h.Becomes c x y := by
  induction hbecomes with
  | nil =>
      cases hx
  | cons hfirst _ ih =>
      rcases List.mem_cons.mp hx with rfl | hrest
      · exact ⟨_, List.mem_cons_self, hfirst⟩
      · rcases ih hrest with ⟨y, hy, hxy⟩
        exact ⟨y, List.mem_cons_of_mem _ hy, hxy⟩

/-- For every hop that a configuration registers: every survivor is in the transformed resource at
its address on the target, with its own transformed model, and there is nothing else.  When no two
children are put at one element, the survivors are all resources that are not withheld. -/
theorem transformResource_survivors {config : Config} {registry : Registry}
    (hregistry : config.registry = .ok registry) (hholds : registry.Holds h) (ha : a ≠ [])
    {r out : Resource} (hordered : r.Ordered) {c' : Context}
    (hrun : TransformM.run (h.transformResource a r) c = (.ok (some out), c')) :
    (∀ x ∈ h.survivors c a r, exists b model, h.targetOf x.1 = h.targetOf a ++ b ∧
      h.modelOnTarget c x.1 x.2 = .ok model ∧
      (out.navigate? b).map Resource.model = some model) ∧
    (out.listing (h.targetOf a)).length = (h.survivors c a r).length ∧
    (h.Separated c a r ->
      h.survivors c a r = (r.listing a).filter fun x => h.withholding x.1 c = .never) := by
  have hb := (Config.isBuiltIn_registry hregistry).of_holds hholds
  rcases survivors_perm hb r ha hordered (resourceOnTarget_of_run hb ha hrun) with
    ⟨hout, listed, hperm, hbecomes⟩
  refine ⟨?_, ?_, survivors_of_separated hb⟩
  · intro x hx
    rcases exists_becomes hbecomes hx with ⟨y, hy, htarget, hmodel⟩
    rcases Resource.navigate?_of_mem_listing (h.targetOf a) out hout (hperm.mem_iff.mp hy) with
      ⟨b, hb', hfound⟩
    exact ⟨b, y.2, htarget.symm.trans hb', hmodel, hfound⟩
  · rw [← hperm.length_eq, hbecomes.length_eq]

end Hop

namespace MailSubsystem

/-- Two servers, the first of which has a log. -/
def twoServers : Resource :=
  .node .emptyObject
    [(⟨"server", "smtp"⟩, .node .emptyObject [(⟨"log", "errors"⟩, Resource.ofModel .emptyObject)]),
      (⟨"server", "store"⟩, Resource.ofModel .emptyObject)]

def lastHost : Resource :=
  .node .emptyObject [(⟨"host", "main"⟩, Resource.ofModel .emptyObject)]

theorem ordered_server : (Resource.node .emptyObject
    [(⟨"log", "errors"⟩, Resource.ofModel .emptyObject)]).Ordered :=
  .node (List.pairwise_singleton _ _)
    (List.forall_mem_singleton.mpr (Resource.ordered_ofModel .emptyObject))

theorem ordered_oneServer : oneServer.Ordered := by
  have helements : ElementMap.Ordered oneServer.children := by
    unfold ElementMap.Ordered
    decide +kernel
  exact .node helements (List.forall_mem_cons.mpr
    ⟨Resource.ordered_ofModel .emptyObject, List.forall_mem_singleton.mpr ordered_server⟩)

theorem ordered_twoServers : twoServers.Ordered := by
  have helements : ElementMap.Ordered twoServers.children := by
    unfold ElementMap.Ordered
    decide +kernel
  exact .node helements (List.forall_mem_cons.mpr
    ⟨ordered_server, List.forall_mem_singleton.mpr (Resource.ordered_ofModel .emptyObject)⟩)

end MailSubsystem

open MailSubsystem in
theorem Hop.survivors_oneServer : address ≠ [] ∧ oneServer.Ordered ∧
    (∀ x ∈ hop.survivors context address oneServer, exists b model,
      hop.targetOf x.1 = hop.targetOf address ++ b ∧
      hop.modelOnTarget context x.1 x.2 = .ok model ∧
      (oneHost.navigate? b).map Resource.model = some model) ∧
    (oneHost.listing (hop.targetOf address)).length =
      (hop.survivors context address oneServer).length := by
  have hrun : TransformM.run (hop.transformResource address oneServer) context =
      (.ok (some oneHost), context) := by
    rfl
  have hall := Hop.transformResource_survivors registry_config holds_hop (by decide)
    ordered_oneServer hrun
  exact ⟨by decide, ordered_oneServer, hall.1, hall.2.1⟩

open MailSubsystem in
/-- The first of two servers is lost with its log, because both are put at one element. -/
theorem Hop.not_all_present_twoServers : config.registry = .ok registry ∧ registry.Holds hop ∧
    twoServers.Ordered ∧
    TransformM.run (hop.transformResource address twoServers) context =
      (.ok (some lastHost), context) ∧
    ¬ (∀ x ∈ twoServers.listing address, hop.withholding x.1 context = .never ->
      exists b model, hop.targetOf x.1 = hop.targetOf address ++ b ∧
        hop.modelOnTarget context x.1 x.2 = .ok model ∧
        (lastHost.navigate? b).map Resource.model = some model) ∧
    (lastHost.listing (hop.targetOf address)).length ≠
      ((twoServers.listing address).filter fun x =>
        hop.withholding x.1 context = .never).length := by
  refine ⟨registry_config, holds_hop, ordered_twoServers, rfl, ?_, by decide +kernel⟩
  intro hall
  have hlog : ((address.child ⟨"server", "smtp"⟩).child ⟨"log", "errors"⟩, Value.emptyObject) ∈
      twoServers.listing address :=
    List.mem_cons_of_mem _ (List.mem_cons_of_mem _ List.mem_cons_self)
  obtain ⟨b, model, htarget, _, hpresent⟩ := hall _ hlog (by decide +kernel)
  have hplace : hop.targetOf ((address.child ⟨"server", "smtp"⟩).child ⟨"log", "errors"⟩) =
      hop.targetOf address ++ [⟨"host", "main"⟩, ⟨"log", "errors"⟩] := by
    rfl
  have hb : b = [⟨"host", "main"⟩, ⟨"log", "errors"⟩] :=
    List.append_cancel_left (htarget.symm.trans hplace)
  subst hb
  cases hpresent

end MixedDomain
