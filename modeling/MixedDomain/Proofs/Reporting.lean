import MixedDomain.Context

/-!
# Computations that only report

## What such a computation reads and leaves

Nothing that a configuration can declare looks at the current address, the
protection, the attachments or the warnings of a context, or changes any of these
for good, save that it may add warnings.  Such a computation ends in every context
as it ends in the fresh one with the same target and the same model.

## Closure

The property is kept by sequencing and by moving and protecting for a while, so
that it holds of whole transformations because it holds of their parts.  Where a
part depends on what its predecessor gives, the property speaks of the results too.
-/

namespace MixedDomain

def Context.fresh (c : Context) : Context :=
  Context.start c.target c.model

def Context.reporting (warnings : List String) (c : Context) : Context :=
  { c with warnings := c.warnings ++ warnings }

namespace Context

@[simp] theorem fresh_fresh (c : Context) : c.fresh.fresh = c.fresh := by
  rfl

theorem target_eq_of_fresh {c c' : Context} (h : c.fresh = c'.fresh) : c.target = c'.target := by
  have htarget : c.fresh.target = c'.fresh.target := congrArg Context.target h
  exact htarget

@[simp] theorem fresh_reporting (warnings : List String) (c : Context) :
    (c.reporting warnings).fresh = c.fresh := by
  rfl

@[simp] theorem fresh_moveTo (a : Address) (c : Context) : (c.moveTo a).fresh = c.fresh := by
  rfl

@[simp] theorem reporting_nil (c : Context) : c.reporting [] = c := by
  simp [reporting]

@[simp] theorem reporting_reporting (first second : List String) (c : Context) :
    (c.reporting first).reporting second = c.reporting (first ++ second) := by
  simp [reporting, List.append_assoc]

@[simp] theorem warnings_reporting_fresh (warnings : List String) (c : Context) :
    (c.fresh.reporting warnings).warnings = warnings := by
  rfl

end Context

namespace TransformM

variable {result next : Type}

/-!
# Runs of the operators
-/

theorem run_pure (x : result) (c : Context) : run (pure x) c = (.ok x, c) := by
  rfl

theorem run_throw (e : TransformError) (c : Context) :
    run (throw e : TransformM result) c = (.error e, c) := by
  rfl

theorem run_get_bind (k : Context -> TransformM result) (c : Context) :
    run (get >>= k) c = run (k c) c := by
  rfl

theorem run_bind_of_ok {m : TransformM result} {k : result -> TransformM next}
    {c c' : Context} {x : result} (h : run m c = (.ok x, c')) :
    run (m >>= k) c = run (k x) c' := by
  have h' : StateT.run (ExceptT.run m) c = (.ok x, c') := h
  rw [run, ExceptT.run_bind, StateT.run_bind, h']
  rfl

theorem run_bind_of_error {m : TransformM result} {k : result -> TransformM next}
    {c c' : Context} {e : TransformError} (h : run m c = (.error e, c')) :
    run (m >>= k) c = (.error e, c') := by
  have h' : StateT.run (ExceptT.run m) c = (.error e, c') := h
  rw [run, ExceptT.run_bind, StateT.run_bind, h']
  rfl

theorem run_bind_fst_of_error {m : TransformM result} {k : result -> TransformM next}
    {c : Context} {e : TransformError} (h : (run m c).1 = .error e) :
    (run (m >>= k) c).1 = .error e := by
  have hrun : run m c = (.error e, (run m c).2) := Prod.ext h rfl
  rw [run_bind_of_error hrun]

theorem run_bind_eq_ok {m : TransformM result} {k : result -> TransformM next}
    {c c' : Context} {y : next} (h : run (m >>= k) c = (.ok y, c')) :
    exists x mid, run m c = (.ok x, mid) ∧ run (k x) mid = (.ok y, c') := by
  rcases hm : run m c with ⟨ending, mid⟩
  cases ending with
  | error e =>
      rw [run_bind_of_error hm] at h
      cases h
  | ok x =>
      rw [run_bind_of_ok hm] at h
      exact ⟨x, mid, rfl, h⟩

theorem run_ofValue_eq_ok {r : Except ValueError result} {c c' : Context} {x : result}
    (h : run (ofValue r) c = (.ok x, c')) : r = .ok x ∧ c' = c := by
  cases r with
  | error e =>
      cases h
  | ok y =>
      cases h
      exact ⟨rfl, rfl⟩

theorem run_ofValue_snd (r : Except ValueError result) (c : Context) :
    (run (ofValue r) c).2 = c := by
  cases r <;> rfl

theorem run_bind_snd {m : TransformM result} {k : result -> TransformM next} {c : Context}
    (hm : (run m c).2 = c) (hk : forall x, (run (k x) c).2 = c) : (run (m >>= k) c).2 = c := by
  rcases hrun : run m c with ⟨e | x, c'⟩
  · rw [run_bind_of_error hrun, ← hm, hrun]
  · rw [hrun] at hm
    cases hm
    rw [run_bind_of_ok hrun]
    exact hk x

theorem run_guarded_of_run {m : TransformM result} {c c' : Context}
    {ending : Except TransformError result} (h : run m c.protect.2 = (ending, c')) :
    run (guarded m) c = (ending, c'.release c.protect.1) := by
  show ((run m c.protect.2).1, (run m c.protect.2).2.release c.protect.1) = _
  rw [h]

theorem run_guarded_of_silent {m : TransformM result} {c : Context}
    {ending : Except TransformError result} (h : run m c.protect.2 = (ending, c.protect.2)) :
    run (guarded m) c = (ending, c) :=
  (run_guarded_of_run h).trans rfl

theorem run_guarded_eq_ok {m : TransformM result} {c c' : Context} {x : result}
    (h : run (guarded m) c = (.ok x, c')) : exists c₁ c₂, run m c₁ = (.ok x, c₂) := by
  have hinside : (run m c.protect.2).1 = .ok x := congrArg Prod.fst h
  exact ⟨c.protect.2, _, Prod.ext hinside rfl⟩

/-!
# Reporting

The ending in a fresh context says all about the ending in any other one.
-/

/-- Whether a computation ends as in a fresh context, and leaves its own context as it is apart
from the warnings that it adds. -/
def Reports (m : TransformM result) : Prop :=
  forall c, run m c = ((run m c.fresh).1, c.reporting (run m c.fresh).2.warnings)

theorem Reports.ending_eq {m : TransformM result} (h : Reports m) {c c' : Context}
    (hfresh : c.fresh = c'.fresh) : (run m c).1 = (run m c').1 := by
  rw [h c, h c', hfresh]

theorem Reports.fresh_eq {m : TransformM result} (h : Reports m) {c c' : Context}
    {ending : Except TransformError result} (hrun : run m c = (ending, c')) :
    c'.fresh = c.fresh := by
  rw [h c] at hrun
  cases hrun
  simp

theorem Reports.run_of_silent {m : TransformM result} (h : Reports m) {c c' : Context}
    (hfresh : c'.fresh = c.fresh) {x : result} (hrun : run m c = (.ok x, c)) :
    run m c' = (.ok x, c') := by
  rw [h c, Prod.mk.injEq] at hrun
  have hwarnings : c.warnings ++ (run m c.fresh).2.warnings = c.warnings :=
    congrArg Context.warnings hrun.2
  rw [h c', hfresh, hrun.1, List.append_right_eq_self.mp hwarnings, Context.reporting_nil]

theorem reports_pure (x : result) : Reports (pure x) := by
  intro c
  simp [run_pure, Context.fresh, Context.start]

theorem reports_throw (e : TransformError) : Reports (throw e : TransformM result) := by
  intro c
  simp [run_throw, Context.fresh, Context.start]

theorem reports_ofValue (r : Except ValueError result) : Reports (ofValue r) := by
  cases r with
  | ok x => exact reports_pure x
  | error e => exact reports_throw _

theorem reports_warn (message : String) : Reports (warn message) := by
  intro c
  rfl

/-- What follows needs to report for the results that there are only. -/
theorem reports_bind_of_run {m : TransformM result} {k : result -> TransformM next}
    (hm : Reports m) (hk : forall c x c', run m c = (.ok x, c') -> Reports (k x)) :
    Reports (m >>= k) := by
  intro c
  have hrun := hm c
  have hfresh := hm c.fresh
  rw [Context.fresh_fresh] at hfresh
  rcases hending : (run m c.fresh).1 with e | x
  · rw [hending] at hrun hfresh
    rw [run_bind_of_error hrun, run_bind_of_error hfresh]
    simp
  · rw [hending] at hrun hfresh
    have hnext := hk c x _ hrun
    rw [run_bind_of_ok hrun, run_bind_of_ok hfresh, hnext (c.reporting _),
      hnext (c.fresh.reporting _)]
    simp

theorem reports_bind {m : TransformM result} {k : result -> TransformM next}
    (hm : Reports m) (hk : forall x, Reports (k x)) : Reports (m >>= k) :=
  reports_bind_of_run hm fun _ x _ _ => hk x

theorem reports_get_bind {k : Context -> TransformM result}
    (hfresh : forall c, k c.fresh = k c) (hk : forall c, Reports (k c)) :
    Reports (get >>= k) := by
  intro c
  rw [run_get_bind, run_get_bind, hfresh c]
  exact hk c c

theorem reports_ite {p : Prop} [Decidable p] {m m' : TransformM result}
    (hm : Reports m) (hm' : Reports m') : Reports (if p then m else m') := by
  by_cases hp : p
  · simpa [hp] using hm
  · simpa [hp] using hm'

theorem reports_movedTo (a : Address) {m : TransformM result} (hm : Reports m) :
    Reports (movedTo a m) := by
  intro c
  have hrun : forall c : Context, run (movedTo a m) c =
      ((run m c.fresh).1, c.reporting (run m c.fresh).2.warnings) := by
    intro c
    show ((run m (c.moveTo a)).1, (run m (c.moveTo a)).2.moveTo c.current) = _
    rw [hm (c.moveTo a)]
    rfl
  rw [hrun c, hrun c.fresh]
  simp

theorem reports_guarded {m : TransformM result} (hm : Reports m) : Reports (guarded m) := by
  intro c
  have hrun : forall c : Context, run (guarded m) c =
      ((run m c.fresh).1, c.reporting (run m c.fresh).2.warnings) := by
    intro c
    show ((run m c.protect.2).1, (run m c.protect.2).2.release c.protect.1) = _
    rw [hm c.protect.2]
    rfl
  rw [hrun c, hrun c.fresh]
  simp

/-!
# Reporting with results of a kind

A sequence may use what the results of its first part are.
-/

/-- Whether a computation only reports, and all its results have a property. -/
def ReportsWith (p : result -> Prop) (m : TransformM result) : Prop :=
  Reports m ∧ forall c x c', run m c = (.ok x, c') -> p x

variable {p : result -> Prop} {q : next -> Prop}

theorem reportsWith_of_reports {m : TransformM result} (hm : Reports m) :
    ReportsWith (fun _ => True) m :=
  ⟨hm, fun _ _ _ _ => trivial⟩

theorem reportsWith_pure {x : result} (h : p x) : ReportsWith p (pure x) := by
  constructor
  · exact reports_pure x
  · intro c y c' hrun
    cases hrun
    exact h

theorem reportsWith_ofValue {r : Except ValueError result} (h : forall x, r = .ok x -> p x) :
    ReportsWith p (ofValue r) := by
  constructor
  · exact reports_ofValue r
  · intro c x c' hrun
    exact h x (run_ofValue_eq_ok hrun).1

theorem reportsWith_bind {m : TransformM result} {k : result -> TransformM next}
    (hm : ReportsWith p m) (hk : forall x, p x -> ReportsWith q (k x)) :
    ReportsWith q (m >>= k) := by
  constructor
  · exact reports_bind_of_run hm.1 fun c x c' hrun => (hk x (hm.2 c x c' hrun)).1
  · intro c y c' hrun
    rcases run_bind_eq_ok hrun with ⟨x, mid, hfirst, hrest⟩
    exact (hk x (hm.2 c x mid hfirst)).2 mid y c' hrest

theorem reportsWith_of_bind {m : TransformM result} {k : result -> TransformM next}
    (hm : Reports m) (hk : forall x, ReportsWith q (k x)) : ReportsWith q (m >>= k) :=
  reportsWith_bind (reportsWith_of_reports hm) fun x _ => hk x

theorem reportsWith_get_bind {k : Context -> TransformM result}
    (hfresh : forall c, k c.fresh = k c) (hk : forall c, ReportsWith p (k c)) :
    ReportsWith p (get >>= k) := by
  constructor
  · exact reports_get_bind hfresh fun c => (hk c).1
  · intro c x c' hrun
    exact (hk c).2 c x c' hrun

theorem reportsWith_ite {condition : Prop} [Decidable condition] {m m' : TransformM result}
    (hm : ReportsWith p m) (hm' : ReportsWith p m') :
    ReportsWith p (if condition then m else m') := by
  by_cases hcondition : condition
  · simpa [hcondition] using hm
  · simpa [hcondition] using hm'

theorem reportsWith_movedTo (a : Address) {m : TransformM result} (hm : ReportsWith p m) :
    ReportsWith p (movedTo a m) := by
  constructor
  · exact reports_movedTo a hm.1
  · intro c x c' hrun
    have hinside : (run m (c.moveTo a)).1 = .ok x := congrArg Prod.fst hrun
    exact hm.2 (c.moveTo a) x _ (Prod.ext hinside rfl)

theorem reportsWith_guarded {m : TransformM result} (hm : ReportsWith p m) :
    ReportsWith p (guarded m) := by
  constructor
  · exact reports_guarded hm.1
  · intro c x c' hrun
    have hinside : (run m c.protect.2).1 = .ok x := congrArg Prod.fst hrun
    exact hm.2 c.protect.2 x _ (Prod.ext hinside rfl)

end TransformM
end MixedDomain
