import MixedDomain.Proofs.Config.BuiltIn
import MixedDomain.Proofs.Description.Placing
import MixedDomain.Proofs.Hop.Address

/-!
# Resources by direct recursion

## The direct recursion

What a hop makes of a resource is said by a recursion over the resource alone: it
gives nothing if the resource is withheld, the resource itself if it has no
description, and otherwise the transformed model with what becomes of the
children, each at the last element of its address on the target.

## Building from the top

The target tree is built from the top by updates.  Each of them puts what the
recursion gives below a parent that is there already, and updates at one address
are one update.
-/

namespace MixedDomain
namespace Hop

/-- A model after the rules about attributes, and without new attributes that are undefined. -/
def modelAfterRules (d : ResourceDescription) (a : Address) (model : Value) (c : Context) :
    Except TransformError Value :=
  (TransformM.run (d.transformModel a model) c).1.map (d.placement?.getD .plain).modelPlaced

/-- What becomes of a child, at the last element of its address on the target. -/
def placedAt (target : Address) (out? : Option Resource) : List (PathElement × Resource) :=
  match target.getLast?, out? with
  | some e, some out => [(e, out)]
  | _, _ => []

mutual

/-- What becomes of the resource at an address; nothing if it is withheld. -/
def resourceOnTarget (h : Hop) (c : Context) (a : Address) :
    Resource -> Except TransformError (Option Resource)
  | .node model children =>
      if h.isWithheldAbove a c then
        .ok none
      else
        match h.description? a with
        | none => .ok (some (.node model children))
        | some d =>
            if d.withholding.decide a c ≠ .never then
              .ok none
            else do
              let model ← modelAfterRules d a model c
              let placed ← childrenOnTarget h c a children
              return some (Resource.ofChildren model placed)

/-- What becomes of children, in order. -/
def childrenOnTarget (h : Hop) (c : Context) (a : Address) :
    List (PathElement × Resource) -> Except TransformError (List (PathElement × Resource))
  | [] => .ok []
  | (e, child) :: rest => do
      let out? ← resourceOnTarget h c (a.child e) child
      let others ← childrenOnTarget h c a rest
      return placedAt (h.targetOf (a.child e)) out? ++ others

end

variable {h : Hop} {c c₀ c' : Context} {a : Address}

theorem placedAt_child_none (parent : Address) (e : PathElement) :
    placedAt (parent.child e) none = [] := by
  simp [placedAt, Address.child]

theorem placedAt_child_some (parent : Address) (e : PathElement) (out : Resource) :
    placedAt (parent.child e) (some out) = [(e, out)] := by
  simp [placedAt, Address.child]

/-!
# One description
-/

theorem modelAfterRules_of_run {d : ResourceDescription} (hd : d.IsBuiltIn)
    (hfresh : c.fresh = c₀.fresh) {model model' : Value}
    (hrun : TransformM.run (d.transformModel a model) c = (.ok model', c')) :
    modelAfterRules d a model c₀ = .ok ((d.placement?.getD .plain).modelPlaced model') := by
  have hending := (d.reports_transformModel hd a model).ending_eq hfresh
  rw [hrun] at hending
  rw [modelAfterRules, ← hending]
  rfl

theorem decide_eq_of_isBuiltIn {d : ResourceDescription} (hd : d.IsBuiltIn) (a : Address)
    (c c' : Context) : d.withholding.decide a c = d.withholding.decide a c' := by
  rcases hd.withholding with ⟨w, hw⟩
  rw [hw]
  rfl

theorem reports_warnNotSent (a : Address) : TransformM.Reports (warnNotSent a) :=
  TransformM.reports_get_bind (fun _ => rfl) fun _ => TransformM.reports_warn _

/-!
# Building from the top
-/

def PlacesResource (h : Hop) (c₀ : Context) (r : Resource) : Prop :=
  forall {a parent : Address} {e : PathElement} {tree tree' : Resource} {c c' : Context} {u : Unit},
    a ≠ [] -> h.targetOf a = parent.child e -> withheldAlong a c₀ (h.above a) = .never ->
    c.fresh = c₀.fresh -> (tree.navigate? parent).isSome ->
    PlaceM.runOn (placeResource h a r) tree c = (.ok (u, tree'), c') ->
    c'.fresh = c₀.fresh ∧ exists out?, h.resourceOnTarget c₀ a r = .ok out? ∧
      tree.updateAt? (fun p => p.registerAll (placedAt (h.targetOf a) out?)) parent = some tree'

def PlacesChildren (h : Hop) (c₀ : Context) (children : List (PathElement × Resource)) : Prop :=
  forall {a : Address} {tree tree' : Resource} {c c' : Context} {u : Unit},
    h.withholding a c₀ = .never -> c.fresh = c₀.fresh -> (tree.navigate? (h.targetOf a)).isSome ->
    PlaceM.runOn (placeChildren h a children) tree c = (.ok (u, tree'), c') ->
    c'.fresh = c₀.fresh ∧ exists placed, h.childrenOnTarget c₀ a children = .ok placed ∧
      tree.updateAt? (fun p => p.registerAll placed) (h.targetOf a) = some tree'

theorem placesChildren_nil (h : Hop) (c₀ : Context) : h.PlacesChildren c₀ [] := by
  intro a tree tree' c c' u _ hfresh hthere hrun
  rcases PlaceM.runOn_pure_eq_ok hrun with ⟨_, rfl, rfl⟩
  refine ⟨hfresh, [], rfl, ?_⟩
  simp only [Resource.registerAll_nil]
  exact Resource.updateAt?_id hthere

theorem placesChildren_cons (hb : h.IsBuiltIn) {e : PathElement} {child : Resource}
    {rest : List (PathElement × Resource)} (hchild : h.PlacesResource c₀ child)
    (hrest : h.PlacesChildren c₀ rest) : h.PlacesChildren c₀ ((e, child) :: rest) := by
  intro a tree tree' c c' u hsent hfresh hthere hrun
  rcases PlaceM.runOn_bind_eq_ok hrun with ⟨_, mid, c₁, hfirst, hothers⟩
  have habove : withheldAlong (a.child e) c₀ (h.above (a.child e)) = .never :=
    (withheldAlong_above_child hb).trans hsent
  rcases hchild (Address.child_ne_nil a e) (targetOf_child hb a e) habove hfresh hthere hfirst with
    ⟨hfresh₁, out?, hout, hupdate⟩
  have hmid : (mid.navigate? (h.targetOf a)).isSome := by
    rw [Resource.navigate?_of_updateAt? hupdate, Option.isSome_map]
    exact hthere
  rcases hrest hsent hfresh₁ hmid hothers with ⟨hend, others, hplaced, hupdates⟩
  refine ⟨hend, placedAt (h.targetOf (a.child e)) out? ++ others, ?_, ?_⟩
  · simp [childrenOnTarget, hout, hplaced]
    rfl
  · simp only [Resource.registerAll_append]
    rw [← Resource.updateAt?_updateAt? hupdate, hupdates]

/-- A description that sends a resource: its model is put first, and its children below it. -/
theorem placesResource_of_sent (hb : h.IsBuiltIn) {d : ResourceDescription} {parent : Address}
    {e : PathElement} {model : Value} {children : List (PathElement × Resource)}
    {tree tree' : Resource} {u : Unit} (ha : a ≠ []) (htarget : h.targetOf a = parent.child e)
    (habove : withheldAlong a c₀ (h.above a) = .never) (hd : h.description? a = some d)
    (hw : d.withholding.decide a c₀ = .never) (hfresh : c.fresh = c₀.fresh)
    (hparent : (tree.navigate? parent).isSome) (hchildren : h.PlacesChildren c₀ children)
    (hrun : PlaceM.runOn (do
      let model ← (d.transformModel a model : TransformM Value)
      (d.placement?.getD .plain).run h.targetOf a (.node model children)
        (placeChildren h a children)) tree c = (.ok (u, tree'), c')) :
    c'.fresh = c₀.fresh ∧
      exists out?, h.resourceOnTarget c₀ a (.node model children) = .ok out? ∧
        tree.updateAt? (fun p => p.registerAll (placedAt (h.targetOf a) out?)) parent =
          some tree' := by
  have hbuilt := isBuiltIn_of_description? hb ha hd
  rcases PlaceM.runOn_bind_eq_ok hrun with ⟨model', same, c₁, hlifted, hplace⟩
  rcases PlaceM.runOn_lift_eq_ok hlifted with ⟨heq, hmodel⟩
  rw [heq] at hplace
  have hkept := (d.reports_transformModel hbuilt a model).fresh_eq hmodel
  have hrules := modelAfterRules_of_run hbuilt hfresh hmodel
  rcases Placement.runOn_run_eq_ok (d.isBuiltIn_placement hbuilt) htarget hplace with
    ⟨mid, c₂, hput, hcheck, hbelow⟩
  have hthere : (mid.navigate? (h.targetOf a)).isSome := by
    rw [htarget]
    exact Resource.isSome_navigate?_register hparent hput
  have hsent : h.withholding a c₀ = .never := by
    rw [withholding_eq_above hb ha, habove, hd]
    exact hw
  have hfree := (isWithheldAbove_eq_false_iff ha).mpr habove
  have hfresh₂ : c₂.fresh = c₀.fresh := by
    rw [hcheck, hkept, hfresh]
  rcases hchildren hsent hfresh₂ hthere hbelow with ⟨hend, placed, hplaced, hupdate⟩
  refine ⟨hend, some (Resource.ofChildren
    ((d.placement?.getD .plain).modelPlaced model') placed), ?_, ?_⟩
  · simp [resourceOnTarget, hfree, hd, hw, hrules, hplaced]
    rfl
  · rw [htarget] at hupdate ⊢
    rw [placedAt_child_some, ← hupdate, Resource.updateAt?_child hput]
    rfl

theorem placesResource_node (hb : h.IsBuiltIn) {model : Value}
    {children : List (PathElement × Resource)} (hchildren : h.PlacesChildren c₀ children) :
    h.PlacesResource c₀ (.node model children) := by
  intro a parent e tree tree' c c' u ha htarget habove hfresh hparent hrun
  have hfree := (isWithheldAbove_eq_false_iff ha).mpr habove
  cases hd : h.description? a with
  | none =>
      simp only [placeResource, hd, htarget] at hrun
      rcases PlaceM.runOn_putAt_eq_ok hrun with ⟨hupdate, rfl⟩
      refine ⟨hfresh, some (.node model children), ?_, ?_⟩
      · simp [resourceOnTarget, hfree, hd]
      · rw [htarget, placedAt_child_some]
        exact hupdate
  | some d =>
      have hbuilt := isBuiltIn_of_description? hb ha hd
      have hnothing : d.withholding.decide a c₀ ≠ .never ->
          h.resourceOnTarget c₀ a (.node model children) = .ok none := by
        intro hw
        simp [resourceOnTarget, hfree, hd, hw]
      have hsame : tree.updateAt? (fun p => p.registerAll (placedAt (h.targetOf a) none)) parent =
          some tree := by
        simp only [htarget, placedAt_child_none, Resource.registerAll_nil]
        exact Resource.updateAt?_id hparent
      simp only [placeResource, hd] at hrun
      rcases PlaceM.runOn_bind_eq_ok hrun with ⟨_, _, _, hget, hdecided⟩
      cases hget
      rw [decide_eq_of_isBuiltIn hbuilt a c c₀] at hdecided
      cases hw : d.withholding.decide a c₀ with
      | silent =>
          rw [hw] at hdecided
          rcases PlaceM.runOn_pure_eq_ok hdecided with ⟨_, rfl, rfl⟩
          exact ⟨hfresh, none, hnothing (by simp [hw]), hsame⟩
      | rejectAndWarn =>
          rw [hw] at hdecided
          rcases PlaceM.runOn_lift_eq_ok hdecided with ⟨rfl, hwarn⟩
          have hkept := (reports_warnNotSent a).fresh_eq hwarn
          exact ⟨hkept.trans hfresh, none, hnothing (by simp [hw]), hsame⟩
      | never =>
          rw [hw] at hdecided
          rcases PlaceM.runOn_movedTo_eq_ok hdecided with ⟨c₁, hmoved, hback⟩
          rcases placesResource_of_sent hb ha htarget habove hd hw
            ((Context.fresh_moveTo a c).trans hfresh) hparent hchildren hmoved with ⟨hend, hplaced⟩
          exact ⟨hback.trans hend, hplaced⟩

mutual

theorem placesResource (hb : h.IsBuiltIn) (c₀ : Context) : (r : Resource) -> h.PlacesResource c₀ r
  | .node _ children => placesResource_node hb (placesChildren hb c₀ children)

theorem placesChildren (hb : h.IsBuiltIn) (c₀ : Context) :
    (children : List (PathElement × Resource)) -> h.PlacesChildren c₀ children
  | [] => placesChildren_nil h c₀
  | (_, child) :: rest =>
      placesChildren_cons hb (placesResource hb c₀ child) (placesChildren hb c₀ rest)

end

theorem resourceOnTarget_of_run (hb : h.IsBuiltIn) (ha : a ≠ []) {r : Resource}
    {out? : Option Resource} (hrun : TransformM.run (h.transformResource a r) c = (.ok out?, c')) :
    h.resourceOnTarget c a r = .ok out? := by
  rcases r with ⟨model, children⟩
  rcases Address.exists_eq_child ha with ⟨parent, e, rfl⟩
  have htarget := targetOf_child hb parent e
  rw [transformResource, TransformM.run_get_bind] at hrun
  have hnothing : withheldAlong (parent.child e) c (h.above (parent.child e)) ≠ .never ->
      h.resourceOnTarget c (parent.child e) (.node model children) = .ok none := by
    intro hwithheld
    have habove := mt (isWithheldAbove_eq_false_iff ha).mp hwithheld
    rw [resourceOnTarget, if_pos (Bool.eq_true_of_not_eq_false habove)]
  cases habove : withheldAlong (parent.child e) c (h.above (parent.child e)) with
  | silent =>
      rw [habove] at hrun
      cases hrun
      exact hnothing (by simp [habove])
  | rejectAndWarn =>
      rw [habove] at hrun
      rcases TransformM.run_bind_eq_ok hrun with ⟨_, _, _, hnone⟩
      cases hnone
      exact hnothing (by simp [habove])
  | never =>
      rw [habove] at hrun
      rcases TransformM.run_bind_eq_ok hrun with ⟨⟨u, tree⟩, mid, hplace, htaken⟩
      cases htaken
      have hancestors := Resource.navigate?_addAlong_empty (h.targetOf parent)
      rw [htarget, Address.parent_child] at hplace
      have hparent : ((Resource.empty.addAlong (h.targetOf parent)).navigate?
          (h.targetOf parent)).isSome := by
        rw [hancestors]
        rfl
      rcases placesResource hb c (.node model children) ha htarget habove rfl hparent hplace with
        ⟨_, out?, hout, hupdate⟩
      rw [hout, taken?, htarget, Resource.navigate?_child, Resource.navigate?_of_updateAt? hupdate,
        hancestors, htarget]
      cases out? with
      | none =>
          rw [placedAt_child_none]
          rfl
      | some out =>
          rw [placedAt_child_some]
          exact congrArg Except.ok (Resource.child?_register_self Resource.empty _ out).symm

/-- For every hop that a configuration registers, transforming the resource at an address other than
the root gives exactly what the direct recursion over the resource gives. -/
theorem transformResource_eq_resourceOnTarget {config : Config} {registry : Registry}
    (hregistry : config.registry = .ok registry) (hholds : registry.Holds h) (ha : a ≠ [])
    {r : Resource} {out? : Option Resource}
    (hrun : TransformM.run (h.transformResource a r) c = (.ok out?, c')) :
    h.resourceOnTarget c a r = .ok out? :=
  resourceOnTarget_of_run ((Config.isBuiltIn_registry hregistry).of_holds hholds) ha hrun

end Hop

/-!
# A subsystem

Its servers all become the main host, and its caches are not sent.
-/

namespace MailSubsystem

def address : Address :=
  [Address.subsystemElement "mail"]

def version : ModelVersion :=
  ⟨1, 0, 0⟩

def config : Config :=
  { target? := none
    registrations := []
    subsystems := [
      { name := "mail"
        versions := [
          { version
            resource := .node [] [] [] []
              [(⟨⟨"server", "*"⟩, .never, some ⟨"host", "main"⟩⟩, .empty),
                (⟨⟨"cache", "*"⟩, .silent, none⟩, .empty)] [] }]
        chain? := none }] }

def registry : Registry :=
  match config.registry with
  | .ok r => r
  | .error _ => Registry.empty

/-- The only hop. -/
def hop : Hop :=
  match registry.hopsTo? "mail" version with
  | some [only] => only
  | _ => ⟨"", Trie.empty⟩

def context : Context :=
  Context.start ⟨"legacy-host", ⟨1, 4, 0⟩, [("mail", version)], .host⟩ (config.model Resource.empty)

theorem registry_config : config.registry = .ok registry := by
  rfl

theorem holds_hop : registry.Holds hop :=
  ⟨"mail", version, [hop], rfl, List.mem_singleton_self hop⟩

/-- One server with a log, and a cache. -/
def oneServer : Resource :=
  .node .emptyObject
    [(⟨"cache", "local"⟩, Resource.ofModel .emptyObject),
      (⟨"server", "smtp"⟩, .node .emptyObject [(⟨"log", "errors"⟩, Resource.ofModel .emptyObject)])]

def oneHost : Resource :=
  .node .emptyObject
    [(⟨"host", "main"⟩, .node .emptyObject [(⟨"log", "errors"⟩, Resource.ofModel .emptyObject)])]

end MailSubsystem

open MailSubsystem in
theorem Hop.resourceOnTarget_oneServer : address ≠ [] ∧
    hop.resourceOnTarget context address oneServer = .ok (some oneHost) :=
  have hrun : TransformM.run (hop.transformResource address oneServer) context =
      (.ok (some oneHost), context) := by
    rfl
  ⟨by decide, Hop.transformResource_eq_resourceOnTarget registry_config holds_hop (by decide) hrun⟩

end MixedDomain
