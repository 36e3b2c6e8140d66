import Mathlib.Data.List.Forall2
import MixedDomain.Proofs.Hop.Address
import MixedDomain.Registry

/-!
# Operations in built-in registries

## Hops

A built-in hop only reports, and all its outcomes are fixed.  Both hold of hops in
a row and of registries.

## Steps

The steps of a composite operation are operations of their own.  As each of them
only reports, a step becomes after others what it becomes alone.
-/

namespace MixedDomain

open TransformM

namespace Hop

variable {h : Hop}

theorem isBuiltIn_transformerAt (hb : h.IsBuiltIn) {a : Address} {operation : Value}
    {transformer : Transformer}
    (ht : transformerAt a operation (h.descriptions.along a) = .ok transformer) :
    transformer.IsBuiltIn := by
  unfold transformerAt at ht
  split at ht
  · rename_i depth d hlast
    have hd := isBuiltIn_of_mem_along hb (List.mem_of_getLast? hlast)
    split at ht
    · cases hname : Operation.name operation with
      | error e =>
          rw [hname] at ht
          cases ht
      | ok name =>
          rw [hname] at ht
          cases ht
          exact d.isBuiltIn_transformerOf hd name
    · cases ht
      exact trivial
  · cases ht
    exact trivial

theorem isFixed_of_redirect {a target : Address} {o o' : Outcome} (ho : o.IsFixed)
    (h : redirect a target o = .ok o') : o'.IsFixed := by
  unfold redirect at h
  split at h
  · cases h
    exact ho
  · exact Outcome.isFixed_mapOperation ho h

theorem reportsWith_transformOperation (hb : h.IsBuiltIn) (a : Address) (operation : Value) :
    ReportsWith Outcome.IsFixed (h.transformOperation a operation) := by
  apply reportsWith_get_bind
  · intro c
    have hsame : withheldAlong a c.fresh (h.descriptions.along a) =
        withheldAlong a c (h.descriptions.along a) :=
      withholding_fresh hb
    simp only [hsame]
  · intro c
    dsimp only
    cases withheldAlong a c (h.descriptions.along a) with
    | silent => exact reportsWith_pure Outcome.isFixed_discarded
    | rejectAndWarn => exact Transformer.reportsWith_rejectOperation none a operation
    | never =>
        apply reportsWith_bind (reportsWith_ofValue fun _ ht => isBuiltIn_transformerAt hb ht)
        intro transformer ht
        apply reportsWith_bind (Transformer.reportsWith_run ht a operation)
        intro outcome hfixed
        exact reportsWith_ofValue fun _ hredirect => isFixed_of_redirect hfixed hredirect

end Hop

/-- The steps of an operation; a parameter with steps must be a list. -/
def Operation.steps (operation : Value) : Except ValueError (List Value) :=
  match operation.entry? stepsKey with
  | none => .ok []
  | some (.list items) => .ok items
  | some v => .error (.conversion v.kind .list)

theorem Operation.sizeOf_lt_of_mem_steps {operation : Value} {items : List Value}
    (h : steps operation = .ok items) {step : Value} (hstep : step ∈ items) :
    sizeOf step < sizeOf operation := by
  unfold steps at h
  split at h
  · cases h
    cases hstep
  · rename_i found hentry
    cases h
    cases operation with
    | object entries =>
        have hmem := Entries.mem_of_get? hentry
        have hlist := List.sizeOf_lt_of_mem hmem
        have hitem := List.sizeOf_lt_of_mem hstep
        simp only [Prod.mk.sizeOf_spec, Value.list.sizeOf_spec, Value.object.sizeOf_spec] at *
        omega
    | _ => cases hentry
  · cases h

namespace Registry

variable {r : Registry}

/-!
# Hops in a row
-/

theorem reportsWith_runHops {hops : List Hop} (hb : ∀ hop ∈ hops, hop.IsBuiltIn) (a : Address)
    (operation : Value) :
    ReportsWith (fun outcomes => ∀ o ∈ outcomes, o.IsFixed) (runHops hops a operation) := by
  induction hops generalizing a operation with
  | nil =>
      apply reportsWith_pure
      intro o ho
      cases ho
  | cons hop rest ih =>
      have hrest : ∀ other ∈ rest, other.IsBuiltIn :=
        fun other hother => hb other (List.mem_cons_of_mem hop hother)
      apply reportsWith_bind
        (Hop.reportsWith_transformOperation (hb hop List.mem_cons_self) a operation)
      intro outcome hfixed
      cases outcome.operation? with
      | none =>
          exact reportsWith_pure (List.forall_mem_singleton.mpr hfixed)
      | some next =>
          apply reportsWith_of_bind (reports_ofValue _)
          intro target
          apply reportsWith_bind (ih hrest target next)
          intro outcomes hothers
          exact reportsWith_pure (List.forall_mem_cons.mpr ⟨hfixed, hothers⟩)

theorem reportsWith_applyHops {hops : List Hop} (hb : ∀ hop ∈ hops, hop.IsBuiltIn) (a : Address)
    (operation : Value) : ReportsWith Outcome.IsFixed (applyHops hops a operation) := by
  apply reportsWith_bind (reportsWith_runHops hb a operation)
  intro outcomes hfixed
  split
  · rename_i only
    exact reportsWith_pure (hfixed only List.mem_cons_self)
  · exact reportsWith_pure (Outcome.isFixed_chained hfixed)

theorem reportsWith_transformSimple (hr : r.IsBuiltIn) (name : String) (operation : Value) :
    ReportsWith Outcome.IsFixed (r.transformSimple name operation) := by
  apply reportsWith_ite
  · exact reportsWith_pure (Outcome.isFixed_send operation)
  · apply reportsWith_of_bind (reports_ofValue _)
    intro a
    apply reportsWith_get_bind
    · intro c
      rfl
    · intro c
      cases hhops : r.hops? c.target a with
      | none => exact reportsWith_pure (Outcome.isFixed_send operation)
      | some hops =>
          exact reportsWith_movedTo a (reportsWith_applyHops (hr.of_hops? hhops) a operation)

/-!
# Composite operations
-/

theorem transformStepsEntry_eq (r : Registry) (entries : List (String × Value)) :
    r.transformStepsEntry entries =
      match Entries.get? Operation.stepsKey entries with
      | none => pure []
      | some v => r.transformSteps v := by
  induction entries with
  | nil =>
      rfl
  | cons entry rest ih =>
      rcases entry with ⟨key, v⟩
      by_cases hkey : key = Operation.stepsKey <;>
        simp [transformStepsEntry, Entries.get?, hkey, ih]

/-- A composite operation is transformed step by step, and put together again. -/
theorem transformOperation_eq (r : Registry) (operation : Value) :
    r.transformOperation operation = (do
      let name ← ofValue (Operation.name operation)
      if name = Operation.composite then
        let items ← ofValue (Operation.steps operation)
        let outcomes ← r.transformItems items
        ofValue (Outcome.composite (operation.erase Operation.stepsKey) outcomes)
      else
        r.transformSimple name operation) := by
  cases operation with
  | object entries =>
      have hsteps : r.transformStepsEntry entries =
          ofValue (Operation.steps (.object entries)) >>= r.transformItems := by
        rw [transformStepsEntry_eq, Operation.steps, Value.entry?]
        cases Entries.get? Operation.stepsKey entries with
        | none => rfl
        | some v => cases v <;> rfl
      simp only [transformOperation, hsteps, bind_assoc]
  | _ => rfl

theorem reportsWith_transformItems {items : List Value}
    (hitems : ∀ step ∈ items, ReportsWith Outcome.IsFixed (r.transformOperation step)) :
    ReportsWith (fun outcomes => ∀ o ∈ outcomes, o.IsFixed) (r.transformItems items) := by
  induction items with
  | nil =>
      apply reportsWith_pure
      intro o ho
      cases ho
  | cons step rest ih =>
      apply reportsWith_bind (hitems step List.mem_cons_self)
      intro outcome hfixed
      apply reportsWith_bind
        (ih fun other hother => hitems other (List.mem_cons_of_mem step hother))
      intro outcomes hothers
      exact reportsWith_pure (List.forall_mem_cons.mpr ⟨hfixed, hothers⟩)

theorem reportsWith_transformOperation (hr : r.IsBuiltIn) (operation : Value) :
    ReportsWith Outcome.IsFixed (r.transformOperation operation) := by
  rw [transformOperation_eq]
  apply reportsWith_of_bind (reports_ofValue _)
  intro name
  apply reportsWith_ite
  · apply reportsWith_bind (p := fun items => Operation.steps operation = .ok items)
      (reportsWith_ofValue fun _ hitems => hitems)
    intro items hitems
    apply reportsWith_bind
      (reportsWith_transformItems fun step hstep => reportsWith_transformOperation hr step)
    intro outcomes hfixed
    exact reportsWith_ofValue fun _ hcomposite => Outcome.isFixed_composite hfixed hcomposite
  · exact reportsWith_transformSimple hr name operation
termination_by sizeOf operation
decreasing_by exact Operation.sizeOf_lt_of_mem_steps hitems hstep

def Makes (r : Registry) (c : Context) (operation : Value) (o : Outcome) : Prop :=
  (run (r.transformOperation operation) c).1 = .ok o

theorem exists_run_of_makes {c : Context} {operation : Value} {o : Outcome}
    (h : r.Makes c operation o) :
    exists c', run (r.transformOperation operation) c = (.ok o, c') :=
  ⟨_, Prod.ext h rfl⟩

theorem isFixed_of_makes (hr : r.IsBuiltIn) {c : Context} {operation : Value} {o : Outcome}
    (h : r.Makes c operation o) : o.IsFixed := by
  rcases exists_run_of_makes h with ⟨c', hrun⟩
  exact (reportsWith_transformOperation hr operation).2 c o c' hrun

theorem forall_isFixed_of_makes (hr : r.IsBuiltIn) {c : Context} {items : List Value}
    {outcomes : List Outcome} (hmakes : List.Forall₂ (r.Makes c) items outcomes) :
    ∀ o ∈ outcomes, o.IsFixed := by
  induction hmakes with
  | nil =>
      intro o ho
      cases ho
  | cons hfirst _ ih =>
      exact List.forall_mem_cons.mpr ⟨isFixed_of_makes hr hfirst, ih⟩

theorem makes_of_transformItems (hr : r.IsBuiltIn) {c₀ c c' : Context} {items : List Value}
    {outcomes : List Outcome} (hfresh : c.fresh = c₀.fresh)
    (hrun : run (r.transformItems items) c = (.ok outcomes, c')) :
    List.Forall₂ (r.Makes c₀) items outcomes := by
  induction items generalizing c outcomes with
  | nil =>
      cases hrun
      exact .nil
  | cons step rest ih =>
      rcases run_bind_eq_ok hrun with ⟨outcome, mid, hstep, hafter⟩
      rcases run_bind_eq_ok hafter with ⟨others, _, hrest, hend⟩
      cases hend
      have hreports := (reportsWith_transformOperation hr step).1
      have halone : r.Makes c₀ step outcome := by
        rw [Makes, hreports.ending_eq hfresh.symm, hstep]
      exact .cons halone (ih ((hreports.fresh_eq hstep).trans hfresh) hrest)

theorem makes_of_composite (hr : r.IsBuiltIn) {c c' : Context} {operation : Value} {o : Outcome}
    (hname : Operation.name operation = .ok Operation.composite)
    (hrun : run (r.transformOperation operation) c = (.ok o, c')) :
    exists items steps, Operation.steps operation = .ok items ∧
      List.Forall₂ (r.Makes c) items steps ∧
      Outcome.composite (operation.erase Operation.stepsKey) steps = .ok o := by
  rw [transformOperation_eq, hname] at hrun
  rcases run_bind_eq_ok hrun with ⟨name, _, hread, hbranch⟩
  cases hread
  rw [if_pos rfl] at hbranch
  rcases run_bind_eq_ok hbranch with ⟨items, mid, hitems, hafter⟩
  rcases run_ofValue_eq_ok hitems with ⟨hsteps, rfl⟩
  rcases run_bind_eq_ok hafter with ⟨steps, _, hmade, hcomposite⟩
  exact ⟨items, steps, hsteps, makes_of_transformItems hr rfl hmade,
    (run_ofValue_eq_ok hcomposite).1⟩

end Registry
end MixedDomain
