import MixedDomain.Proofs.Attribute.Models
import MixedDomain.Proofs.Description.Placing

/-!
# How placing ends

## Endings

A computation that builds the target tree ends with a failure, or else it leaves
warnings in the context and nothing more.  The first failure of a sequence is the
failure of the whole, and the warnings of its parts are put together.

## One resource

What a description says about a resource by itself is its failure and its
warnings.  Both are decided by its model and by the target alone.
-/

namespace MixedDomain

namespace PlaceM

/-- Whether a computation ends with a failure if there is one, and with nothing but warnings
otherwise. -/
def EndsAs (m : PlaceM Unit) (tree : Resource) (c : Context) (failure? : Option TransformError)
    (warnings : List String) : Prop :=
  match failure? with
  | some e => (runOn m tree c).1 = .error e
  | none => exists tree', runOn m tree c = (.ok ((), tree'), c.reporting warnings)

variable {m : PlaceM Unit} {tree : Resource} {c : Context} {failure? later? : Option TransformError}
  {warnings more : List String}

theorem endsAs_pure (tree : Resource) (c : Context) : EndsAs (pure ()) tree c none [] :=
  ⟨tree, by rw [Context.reporting_nil]; rfl⟩

theorem EndsAs.of_runOn_eq {m' : PlaceM Unit} (h : runOn m tree c = runOn m' tree c)
    (hends : EndsAs m' tree c failure? warnings) : EndsAs m tree c failure? warnings := by
  unfold EndsAs at *
  rw [h]
  exact hends

theorem EndsAs.bind {k : Unit -> PlaceM Unit} (hm : EndsAs m tree c failure? warnings)
    (hk : forall tree', runOn m tree c = (.ok ((), tree'), c.reporting warnings) ->
      EndsAs (k ()) tree' (c.reporting warnings) later? more) :
    EndsAs (m >>= k) tree c (failure?.or later?) (warnings ++ more) := by
  have hbind : runOn (m >>= k) tree c =
      TransformM.run (StateT.run m tree >>= fun ending => StateT.run (k ending.1) ending.2) c := by
    rw [runOn, StateT.run_bind]
  cases failure? with
  | some e =>
      show (runOn (m >>= k) tree c).1 = .error e
      rw [hbind]
      exact TransformM.run_bind_fst_of_error hm
  | none =>
      rcases hm with ⟨tree', hrun⟩
      have hnext := hk tree' hrun
      have hsame : runOn (m >>= k) tree c = runOn (k ()) tree' (c.reporting warnings) := by
        rw [hbind, TransformM.run_bind_of_ok hrun]
        rfl
      cases later? with
      | some e =>
          show (runOn (m >>= k) tree c).1 = .error e
          rw [hsame]
          exact hnext
      | none =>
          rcases hnext with ⟨last, hlast⟩
          refine ⟨last, ?_⟩
          rw [hsame, hlast, Context.reporting_reporting]

theorem endsAs_lift {u : TransformM Unit} (h : TransformM.run u c = (.ok (), c.reporting warnings)) :
    EndsAs (monadLift u) tree c none warnings := by
  refine ⟨tree, ?_⟩
  show TransformM.run (u >>= fun x => pure (x, tree)) c = _
  rw [TransformM.run_bind_of_ok h]
  rfl

theorem endsAs_lift_of_error {u : TransformM Unit} {e : TransformError}
    (h : (TransformM.run u c).1 = .error e) :
    EndsAs (monadLift u) tree c (some e) warnings := by
  show (TransformM.run (u >>= fun x => pure (x, tree)) c).1 = .error e
  exact TransformM.run_bind_fst_of_error h

/-- A computation that leaves the tree alone may fail, or hand over a result. -/
theorem endsAs_lift_bind {result : Type} {u : TransformM result} {k : result -> PlaceM Unit}
    (hwarns : (TransformM.run u c).2 = c.reporting warnings)
    (hk : forall x, (TransformM.run u c).1 = .ok x ->
      EndsAs (k x) tree (c.reporting warnings) later? more)
    (hfails : forall e, (TransformM.run u c).1 = .error e -> later? = some e) :
    EndsAs (monadLift u >>= k) tree c later? (warnings ++ more) := by
  rcases hrun : TransformM.run u c with ⟨e | x, c'⟩
  · rw [hfails e (congrArg Prod.fst hrun)]
    have hlift : TransformM.run (StateT.run (monadLift u : PlaceM result) tree) c =
        (.error e, c') :=
      TransformM.run_bind_of_error hrun
    show (runOn (monadLift u >>= k) tree c).1 = .error e
    rw [runOn, StateT.run_bind, TransformM.run_bind_of_error hlift]
  · have hkept : c' = c.reporting warnings := (congrArg Prod.snd hrun).symm.trans hwarns
    have hnext := hk x (congrArg Prod.fst hrun)
    rw [hkept] at hrun
    cases later? with
    | some e =>
        show (runOn (monadLift u >>= k) tree c).1 = .error e
        rw [runOn_bind_of_run hrun]
        exact hnext
    | none =>
        rcases hnext with ⟨last, hlast⟩
        refine ⟨last, ?_⟩
        rw [runOn_bind_of_run hrun, hlast, Context.reporting_reporting]

theorem EndsAs.movedTo {a : Address} (h : EndsAs m tree (c.moveTo a) failure? warnings) :
    EndsAs (movedTo a m) tree c failure? warnings := by
  have hrun : runOn (PlaceM.movedTo a m) tree c =
      ((runOn m tree (c.moveTo a)).1, (runOn m tree (c.moveTo a)).2.moveTo c.current) := by
    rfl
  cases failure? with
  | some e =>
      show (runOn (PlaceM.movedTo a m) tree c).1 = .error e
      rw [hrun]
      exact h
  | none =>
      rcases h with ⟨tree', hinside⟩
      refine ⟨tree', ?_⟩
      rw [hrun, hinside]
      rfl

/-- To put a resource below a parent that is there never fails. -/
theorem endsAs_putAt {parent : Address} {e : PathElement} (r : Resource)
    (hparent : (tree.navigate? parent).isSome) : EndsAs (putAt (parent.child e) r) tree c none [] := by
  have hlast : List.getLast? (parent.child e) = some e := by
    simp [Address.child]
  rcases Option.isSome_iff_exists.mp
    (Resource.isSome_updateAt? (fun p => p.register e r) hparent) with ⟨tree', hupdate⟩
  refine ⟨tree', ?_⟩
  simp only [runOn, putAt, StateT.run, hlast, Address.parent_child, hupdate, Context.reporting_nil]
  rfl

end PlaceM

/-!
# New attributes
-/

namespace Placement

def newAttributes : Placement -> List String
  | .discardUndefined names => names
  | _ => []

def refusal? (t : Target) (a : Address) (defined : List String) : Option TransformError :=
  if defined.isEmpty then none
  else if t.managesIgnored then
    some (.notUnderstood defined a.text t.hostName (subsystemName a) (subsystemVersion t a).text)
  else none

def newAttributesWarnings (t : Target) (a : Address) (defined : List String) : List String :=
  if defined.isEmpty then [] else [newAttributesWarning t a defined]

theorem discardUndefinedFrom_snd {v : Value} (hv : v.HasDistinctNames) (names : List String) :
    (discardUndefinedFrom names v).2 = names.filter fun name => v.hasDefined name := by
  induction names generalizing v with
  | nil =>
      rfl
  | cons name rest ih =>
      cases hdefined : v.hasDefined name with
      | true => simp [discardUndefinedFrom, hdefined, ih hv]
      | false =>
          have herased := Value.keptByEdits_hasDistinctNames.erase name hv
          have hsame : ∀ other ∈ rest, (v.erase name).hasDefined other = v.hasDefined other := by
            intro other _
            by_cases heq : other = name
            · have hundefined : ¬ v.hasDefined name := by
                simp [hdefined]
              rw [heq, hdefined]
              simpa using hv.not_hasDefined_erase hundefined
            · rw [Value.hasDefined, Value.getOrUndefined, Value.get?_erase_of_ne heq]
              rfl
          simp [discardUndefinedFrom, hdefined, ih herased, List.filter_congr hsame]

theorem endsAs_checkNewAttributes (a : Address) (defined : List String) (tree : Resource)
    (c : Context) :
    PlaceM.EndsAs (checkNewAttributes a defined : TransformM Unit) tree c
      (refusal? c.target a defined) (newAttributesWarnings c.target a defined) := by
  unfold refusal? newAttributesWarnings
  cases hnone : defined.isEmpty with
  | true =>
      apply PlaceM.endsAs_lift
      rw [checkNewAttributes, TransformM.run_get_bind]
      simp [hnone, TransformM.run_pure]
  | false =>
      cases hmanages : c.target.managesIgnored with
      | true =>
          apply PlaceM.endsAs_lift_of_error
          rw [checkNewAttributes, TransformM.run_get_bind]
          simp only [hnone, hmanages]
          rfl
      | false =>
          apply PlaceM.endsAs_lift
          rw [checkNewAttributes, TransformM.run_get_bind]
          simp only [hnone, hmanages]
          rfl

theorem endsAs_putAt_bind {targetOf : Address -> Address} {a parent : Address} {e : PathElement}
    (htarget : targetOf a = parent.child e) (r : Resource) {children : PlaceM Unit}
    {tree : Resource} {c : Context} {failure? : Option TransformError} {warnings : List String}
    (hparent : (tree.navigate? parent).isSome)
    (hchildren : forall mid, tree.updateAt? (fun p => p.register e r) parent = some mid ->
      PlaceM.EndsAs children mid c failure? warnings) :
    PlaceM.EndsAs (do PlaceM.putAt (targetOf a) r; children) tree c failure? warnings := by
  rw [htarget]
  refine (PlaceM.endsAs_putAt r hparent).bind (k := fun _ => children) ?_
  intro mid hput
  rw [Context.reporting_nil] at hput ⊢
  exact hchildren mid (PlaceM.runOn_putAt_eq_ok hput).1

/-- A built-in placement fails and warns because of defined new attributes, or as the children
do. -/
theorem endsAs_run {placement : Placement} (hb : placement.IsBuiltIn)
    {targetOf : Address -> Address} {a parent : Address} {e : PathElement}
    (htarget : targetOf a = parent.child e) {r : Resource} (hr : r.model.HasDistinctNames)
    {children : PlaceM Unit} {tree : Resource} {c : Context} {failure? : Option TransformError}
    {warnings : List String} (hparent : (tree.navigate? parent).isSome)
    (hchildren : forall mid c', c'.fresh = c.fresh ->
      tree.updateAt? (fun p => p.register e (Resource.ofModel (placement.modelPlaced r.model)))
        parent = some mid -> PlaceM.EndsAs children mid c' failure? warnings) :
    PlaceM.EndsAs (placement.run targetOf a r children) tree c
      ((refusal? c.target a
        (placement.newAttributes.filter fun name => r.model.hasDefined name)).or failure?)
      (newAttributesWarnings c.target a
        (placement.newAttributes.filter fun name => r.model.hasDefined name) ++ warnings) := by
  cases placement with
  | plain => exact endsAs_putAt_bind htarget _ hparent fun mid => hchildren mid c rfl
  | discardUndefined names =>
      have hsnd := discardUndefinedFrom_snd hr names
      have hfst := discardUndefinedFrom_fst names r.model
      rcases hreduced : discardUndefinedFrom names r.model with ⟨model, defined⟩
      rw [hreduced] at hsnd hfst
      simp only [run, hreduced, newAttributes, ← hsnd]
      apply PlaceM.EndsAs.bind (endsAs_checkNewAttributes a defined tree c)
      intro same hcheck
      rw [(PlaceM.runOn_lift_eq_ok hcheck).1]
      apply endsAs_putAt_bind htarget _ hparent
      intro mid hput
      rw [show model = withoutUndefined names r.model from hfst] at hput
      exact hchildren mid _ rfl hput
  | apply place => exact hb.elim

end Placement

/-!
# One description
-/

namespace ResourceDescription

variable {d : ResourceDescription} {a : Address} {model : Value} {c c' : Context}

/-- The new attributes that are still defined when the rules have been applied to a model. -/
def definedNew (d : ResourceDescription) (a : Address) (model : Value) (c : Context) :
    List String :=
  match (TransformM.run (d.transformModel a model) c).1 with
  | .ok transformed =>
      (d.placement?.getD .plain).newAttributes.filter fun name => transformed.hasDefined name
  | .error _ => []

def failure? (d : ResourceDescription) (a : Address) (model : Value) (c : Context) :
    Option TransformError :=
  match (TransformM.run (d.transformModel a model) c).1 with
  | .ok _ => Placement.refusal? c.target a (d.definedNew a model c)
  | .error e => some e

def warnings (d : ResourceDescription) (a : Address) (model : Value) (c : Context) : List String :=
  AttributeDescription.rejectionWarnings d.attributes a model c
    ++ Placement.newAttributesWarnings c.target a (d.definedNew a model c)

theorem transformModel_eq (d : ResourceDescription) (a : Address) (model : Value) :
    d.transformModel a model =
      TransformM.guarded (AttributeDescription.transformModel d.attributes a model) := by
  rw [transformModel, Rule.runAllOnModel, Rule.onModel]
  exact congrArg TransformM.guarded (bind_pure _)

theorem run_transformModel_eq (d : ResourceDescription) (a : Address) (model : Value)
    (c : Context) :
    TransformM.run (d.transformModel a model) c =
      ((TransformM.run (AttributeDescription.transformModel d.attributes a model) c.protect.2).1,
        (TransformM.run (AttributeDescription.transformModel d.attributes a model)
          c.protect.2).2.release c.protect.1) := by
  rw [transformModel_eq]
  exact TransformM.run_guarded_of_run rfl

theorem run_transformModel_snd (hd : d.IsBuiltIn) (a : Address) (model : Value) (c : Context) :
    (TransformM.run (d.transformModel a model) c).2 =
      c.reporting (AttributeDescription.rejectionWarnings d.attributes a model c) := by
  have hwarnings : AttributeDescription.rejectionWarnings d.attributes a model c.protect.2 =
      AttributeDescription.rejectionWarnings d.attributes a model c :=
    (AttributeDescription.rejectionWarnings_fresh hd.attributes a model c.protect.2).symm.trans
      (AttributeDescription.rejectionWarnings_fresh hd.attributes a model c)
  rw [run_transformModel_eq,
    AttributeDescription.run_transformModel_snd hd.attributes hd.distinct, hwarnings]
  rfl

theorem run_transformModel_of_isModel (hd : d.IsBuiltIn) (a : Address) (c : Context)
    (hmodel : model.IsModel) : exists v, (TransformM.run (d.transformModel a model) c).1 = .ok v := by
  rw [run_transformModel_eq]
  exact AttributeDescription.run_transformModel_of_isModel hd.attributes hd.distinct a _ hmodel

theorem hasDistinctNames_of_transformModel (hmodel : model.HasDistinctNames) {v : Value}
    (hrun : TransformM.run (d.transformModel a model) c = (.ok v, c')) : v.HasDistinctNames := by
  rw [transformModel_eq] at hrun
  rcases TransformM.run_guarded_eq_ok hrun with ⟨c₁, c₂, hinside⟩
  exact AttributeDescription.transformModel_keeps Value.keptByEdits_hasDistinctNames hmodel hinside

theorem definedNew_congr (hd : d.IsBuiltIn) (hfresh : c.fresh = c'.fresh) (a : Address)
    (model : Value) : d.definedNew a model c = d.definedNew a model c' := by
  rw [definedNew, definedNew, (d.reports_transformModel hd a model).ending_eq hfresh]

theorem failure?_congr (hd : d.IsBuiltIn) (hfresh : c.fresh = c'.fresh) (a : Address)
    (model : Value) : d.failure? a model c = d.failure? a model c' := by
  have htarget := Context.target_eq_of_fresh hfresh
  rw [failure?, failure?, (d.reports_transformModel hd a model).ending_eq hfresh,
    definedNew_congr hd hfresh, htarget]

theorem warnings_congr (hd : d.IsBuiltIn) (hfresh : c.fresh = c'.fresh) (a : Address)
    (model : Value) : d.warnings a model c = d.warnings a model c' := by
  have htarget := Context.target_eq_of_fresh hfresh
  rw [warnings, warnings, definedNew_congr hd hfresh, htarget,
    ← AttributeDescription.rejectionWarnings_fresh hd.attributes a model c, hfresh,
    AttributeDescription.rejectionWarnings_fresh hd.attributes]

/-- A resource that is sent fails and warns by itself first, and then as its children do. -/
theorem endsAs_sent (hd : d.IsBuiltIn) {targetOf : Address -> Address} {parent : Address}
    {e : PathElement} (htarget : targetOf a = parent.child e) (hmodel : model.HasDistinctNames)
    {below : List (PathElement × Resource)} {children : PlaceM Unit} {tree : Resource}
    {later? : Option TransformError} {more : List String}
    (hparent : (tree.navigate? parent).isSome)
    (hchildren : forall mid c' r, c'.fresh = c.fresh ->
      tree.updateAt? (fun p => p.register e r) parent = some mid ->
      PlaceM.EndsAs children mid c' later? more) :
    PlaceM.EndsAs (do
      let model ← (d.transformModel a model : TransformM Value)
      (d.placement?.getD .plain).run targetOf a (.node model below) children) tree c
      ((d.failure? a model c).or later?) (d.warnings a model c ++ more) := by
  rw [warnings, List.append_assoc]
  apply PlaceM.endsAs_lift_bind (run_transformModel_snd hd a model c)
  · intro v hv
    have hrun : TransformM.run (d.transformModel a model) c = (.ok v, _) := Prod.ext hv rfl
    rw [failure?, definedNew, hv]
    apply Placement.endsAs_run (d.isBuiltIn_placement hd) htarget
      (hasDistinctNames_of_transformModel hmodel hrun) hparent
    intro mid c' hfresh hput
    exact hchildren mid c' _ hfresh hput
  · intro error herror
    rw [failure?, herror]
    rfl

end ResourceDescription
end MixedDomain
