import MixedDomain.Description.Placement
import MixedDomain.Proofs.Description.BuiltIn
import MixedDomain.Proofs.Resource.Tree

/-!
# Placing with built-in placements

## Runs that place

A successful run that builds the target tree is taken apart into its steps.  To put
a resource at an address succeeds only below a parent that is there.

## Built-in placements

A built-in placement puts the resource without children at its place, and then
runs what transforms the children.
-/

namespace MixedDomain
namespace PlaceM

variable {result next : Type} {tree tree' : Resource} {c c' : Context}

def runOn (m : PlaceM result) (tree : Resource) (c : Context) :
    Except TransformError (result × Resource) × Context :=
  TransformM.run (StateT.run m tree) c

theorem runOn_pure_eq_ok {x y : result} (h : runOn (pure x) tree c = (.ok (y, tree'), c')) :
    y = x ∧ tree' = tree ∧ c' = c := by
  cases h
  exact ⟨rfl, rfl, rfl⟩

theorem runOn_bind_eq_ok {m : PlaceM result} {k : result -> PlaceM next} {y : next × Resource}
    (h : runOn (m >>= k) tree c = (.ok y, c')) :
    exists x mid c₁, runOn m tree c = (.ok (x, mid), c₁) ∧ runOn (k x) mid c₁ = (.ok y, c') := by
  rw [runOn, StateT.run_bind] at h
  rcases TransformM.run_bind_eq_ok h with ⟨⟨x, mid⟩, c₁, hm, hk⟩
  exact ⟨x, mid, c₁, hm, hk⟩

theorem runOn_bind_of_run {m : TransformM result} {k : result -> PlaceM next} {x : result}
    (h : TransformM.run m c = (.ok x, c')) :
    runOn (monadLift m >>= k) tree c = runOn (k x) tree c' := by
  have hlift : runOn (monadLift m) tree c = (.ok (x, tree), c') := by
    show TransformM.run (m >>= fun x => pure (x, tree)) c = _
    rw [TransformM.run_bind_of_ok h]
    rfl
  rw [runOn, StateT.run_bind]
  exact TransformM.run_bind_of_ok hlift

theorem runOn_lift_eq_ok {m : TransformM result} {x : result}
    (h : runOn (monadLift m) tree c = (.ok (x, tree'), c')) :
    tree' = tree ∧ TransformM.run m c = (.ok x, c') := by
  have hlift : TransformM.run (m >>= fun x => pure (x, tree)) c = (.ok (x, tree'), c') := h
  rcases TransformM.run_bind_eq_ok hlift with ⟨y, mid, hm, hpure⟩
  cases hpure
  exact ⟨rfl, hm⟩

theorem runOn_movedTo_eq_ok {m : PlaceM result} {a : Address} {y : result × Resource}
    (h : runOn (movedTo a m) tree c = (.ok y, c')) :
    exists c₁, runOn m tree (c.moveTo a) = (.ok y, c₁) ∧ c'.fresh = c₁.fresh := by
  rcases hm : runOn m tree (c.moveTo a) with ⟨ending, c₁⟩
  have hrun : runOn (movedTo a m) tree c = (ending, c₁.moveTo c.current) := by
    show ((runOn m tree (c.moveTo a)).1, (runOn m tree (c.moveTo a)).2.moveTo c.current) = _
    rw [hm]
  rw [hrun] at h
  cases h
  exact ⟨c₁, rfl, Context.fresh_moveTo _ _⟩

theorem runOn_putAt_eq_ok {parent : Address} {e : PathElement} {r : Resource} {u : Unit}
    (h : runOn (putAt (parent.child e) r) tree c = (.ok (u, tree'), c')) :
    tree.updateAt? (fun p => p.register e r) parent = some tree' ∧ c' = c := by
  have hlast : List.getLast? (parent.child e) = some e := by
    simp [Address.child]
  simp only [runOn, putAt, StateT.run, hlast, Address.parent_child] at h
  cases hupdate : tree.updateAt? (fun p => p.register e r) parent with
  | none =>
      rw [hupdate] at h
      cases h
  | some updated =>
      rw [hupdate] at h
      cases h
      exact ⟨rfl, rfl⟩

end PlaceM

/-!
# Ancestors
-/

theorem Resource.navigate?_addAlong_empty (a : Address) :
    (Resource.empty.addAlong a).navigate? a = some Resource.empty := by
  induction a with
  | nil =>
      rfl
  | cons e rest ih =>
      have hchild : Resource.empty.child? e = none := by
        rfl
      simp only [Resource.addAlong, Resource.navigate?, Resource.child?_register_self, hchild,
        Option.getD_none, Option.bind_some]
      exact ih

/-!
# Placements
-/

namespace Placement

/-- The model without new attributes that are undefined. -/
def withoutUndefined (names : List String) (model : Value) : Value :=
  names.foldl (fun v name => if v.hasDefined name then v else v.erase name) model

def modelPlaced : Placement -> Value -> Value
  | .discardUndefined names, model => withoutUndefined names model
  | _, model => model

theorem discardUndefinedFrom_fst (names : List String) (model : Value) :
    (discardUndefinedFrom names model).1 = withoutUndefined names model := by
  induction names generalizing model with
  | nil =>
      rfl
  | cons name rest ih =>
      cases hdefined : model.hasDefined name <;>
        simp [discardUndefinedFrom, withoutUndefined, hdefined, ih]

theorem reports_checkNewAttributes (a : Address) (defined : List String) :
    TransformM.Reports (checkNewAttributes a defined) := by
  apply TransformM.reports_get_bind
  · intro c
    rfl
  · intro c
    apply TransformM.reports_ite
    · exact TransformM.reports_pure ()
    · exact TransformM.reports_ite (TransformM.reports_throw _) (TransformM.reports_warn _)

/-- A built-in placement puts the model, and then the children are transformed. -/
theorem runOn_run_eq_ok {placement : Placement} (hb : placement.IsBuiltIn)
    {targetOf : Address -> Address} {a parent : Address} {e : PathElement}
    (htarget : targetOf a = parent.child e) {r : Resource} {children : PlaceM Unit}
    {tree tree' : Resource} {c c' : Context} {u : Unit}
    (h : PlaceM.runOn (placement.run targetOf a r children) tree c = (.ok (u, tree'), c')) :
    exists mid c₁,
      tree.updateAt? (fun p => p.register e (Resource.ofModel (placement.modelPlaced r.model)))
        parent = some mid ∧
      c₁.fresh = c.fresh ∧ PlaceM.runOn children mid c₁ = (.ok (u, tree'), c') := by
  cases placement with
  | plain =>
      simp only [run, htarget] at h
      rcases PlaceM.runOn_bind_eq_ok h with ⟨_, mid, c₁, hput, hchildren⟩
      rcases PlaceM.runOn_putAt_eq_ok hput with ⟨hupdate, rfl⟩
      exact ⟨mid, c₁, hupdate, rfl, hchildren⟩
  | discardUndefined names =>
      simp only [run, htarget] at h
      rcases PlaceM.runOn_bind_eq_ok h with ⟨_, checked, c₀, hcheck, hrest⟩
      rcases PlaceM.runOn_lift_eq_ok hcheck with ⟨rfl, hran⟩
      rcases PlaceM.runOn_bind_eq_ok hrest with ⟨_, mid, c₁, hput, hchildren⟩
      rcases PlaceM.runOn_putAt_eq_ok hput with ⟨hupdate, rfl⟩
      rw [discardUndefinedFrom_fst] at hupdate
      exact ⟨mid, c₁, hupdate, (reports_checkNewAttributes a _).fresh_eq hran, hchildren⟩
  | apply place => exact hb.elim

end Placement
end MixedDomain
