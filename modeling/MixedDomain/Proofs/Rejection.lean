import MixedDomain.Outcome

/-!
# Rejections that are fixed

## Fixed rejections

Rejections that are made of ones which reject nothing or everything, and that have
not been asked yet, decide about every result in the same way.  They reject
exactly when they have a description, and keep this description.

## Settled rejections

A rejection that is asked remembers what it decides.  What a fixed one remembers is
a description, namely the one that it had before.  Hence a fixed rejection stays
settled: however often it is asked, and about whatever results, it gives the same
answers.

## Verdicts

The verdict of an outcome about a result says whether the result is rejected, and
with which description.
-/

namespace MixedDomain
namespace Rejection

/-- Whether the rejection asks no test about the result and has not been asked yet. -/
inductive IsFixed : Rejection -> Prop where
  | never : IsFixed .never
  | always (description : String) : IsFixed (.always description)
  | chained {others : List Rejection} : (∀ r ∈ others, IsFixed r) -> IsFixed (.chained others none)
  | steps {others : List Rejection} : (∀ r ∈ others, IsFixed r) -> IsFixed (.steps others none)

/-- Whether the rejection asks no test about the result, and has decided only with a description. -/
inductive IsSettled : Rejection -> Prop where
  | never : IsSettled .never
  | always (description : String) : IsSettled (.always description)
  | chained {others : List Rejection} :
      (∀ r ∈ others, IsSettled r) -> IsSettled (.chained others none)
  | steps {others : List Rejection} : (∀ r ∈ others, IsSettled r) -> IsSettled (.steps others none)
  | chainedDecided (others : List Rejection) (description : String) :
      IsSettled (.chained others (some (some description)))
  | stepsDecided (others : List Rejection) (description : String) :
      IsSettled (.steps others (some (some description)))

theorem IsFixed.isSettled {r : Rejection} (h : r.IsFixed) : r.IsSettled := by
  induction h with
  | never => exact .never
  | always description => exact .always description
  | chained _ ih => exact .chained ih
  | steps _ ih => exact .steps ih

/-- Whether the rejection rejects a result exactly if it has a description, and afterwards is
settled and has the same description. -/
def FollowsDescription (r : Rejection) : Prop :=
  forall result, exists r', r.reject result = (r.description?.isSome, r') ∧
    r'.description? = r.description? ∧ r'.IsSettled

theorem firstDescription?_eq_findSome? (others : List Rejection) :
    firstDescription? others = others.findSome? description? := by
  induction others with
  | nil =>
      rfl
  | cons r rest ih =>
      cases hr : r.description? <;> simp [firstDescription?, hr, ih]

/-!
# Asking in order
-/

/-- Asks rejections in order, each about the part of its number, until one rejects. -/
def rejectInOrder (part : Nat -> Value) :
    Nat -> List Rejection -> Option (Option String) × List Rejection
  | _, [] => (none, [])
  | index, r :: rest =>
      match reject r (part index) with
      | (true, r') => (some r'.description?, r' :: rest)
      | (false, r') =>
          let (decided, rest') := rejectInOrder part (index + 1) rest
          (decided, r' :: rest')

theorem rejectFirst_eq (others : List Rejection) (result : Value) (index : Nat) :
    rejectFirst others result = rejectInOrder (fun _ => result) index others := by
  induction others generalizing index with
  | nil =>
      rfl
  | cons r rest ih =>
      rcases hr : r.reject result with ⟨rejects, r'⟩
      cases rejects <;> simp [rejectFirst, rejectInOrder, hr, ih (index + 1)]

theorem rejectStep_eq (others : List Rejection) (result : Value) (index : Nat) :
    rejectStep index others result = rejectInOrder (stepResult result) index others := by
  induction others generalizing index with
  | nil =>
      rfl
  | cons r rest ih =>
      rcases hr : r.reject (stepResult result index) with ⟨rejects, r'⟩
      cases rejects <;> simp [rejectStep, rejectInOrder, hr, ih (index + 1)]

/-- The first description decides, and is the first one afterwards. -/
theorem rejectInOrder_eq {others : List Rejection} (hsettled : ∀ r ∈ others, r.IsSettled)
    (hfollows : ∀ r ∈ others, r.FollowsDescription) (part : Nat -> Value) (index : Nat) :
    exists others',
      rejectInOrder part index others = ((firstDescription? others).map some, others') ∧
      firstDescription? others' = firstDescription? others ∧ ∀ r ∈ others', r.IsSettled := by
  induction others generalizing index with
  | nil =>
      exact ⟨[], rfl, rfl, hsettled⟩
  | cons r rest ih =>
      rw [List.forall_mem_cons] at hsettled hfollows
      rcases hfollows.1 (part index) with ⟨r', hreject, hkept, hr'⟩
      cases hr : r.description? with
      | none =>
          rcases ih hsettled.2 hfollows.2 (index + 1) with ⟨rest', hrest, hsame, hrest'⟩
          rw [hr] at hreject hkept
          refine ⟨r' :: rest', ?_, ?_, List.forall_mem_cons.mpr ⟨hr', hrest'⟩⟩
          · simp [rejectInOrder, firstDescription?, hreject, hr, hrest]
          · simp [firstDescription?, hkept, hr, hsame]
      | some description =>
          rw [hr] at hreject hkept
          refine ⟨r' :: rest, ?_, ?_, List.forall_mem_cons.mpr ⟨hr', hsettled.2⟩⟩
          · simp [rejectInOrder, firstDescription?, hreject, hr, hkept]
          · simp [firstDescription?, hkept, hr]

theorem IsSettled.followsDescription {r : Rejection} (h : r.IsSettled) : r.FollowsDescription := by
  induction h with
  | never => exact fun _ => ⟨.never, rfl, rfl, .never⟩
  | always description => exact fun _ => ⟨.always description, rfl, rfl, .always description⟩
  | chainedDecided others description =>
      exact fun _ => ⟨_, rfl, rfl, .chainedDecided others description⟩
  | stepsDecided others description =>
      exact fun _ => ⟨_, rfl, rfl, .stepsDecided others description⟩
  | @chained others hsettled ih =>
      intro result
      rcases rejectInOrder_eq hsettled ih (fun _ => result) 0 with
        ⟨others', hasked, hsame, hothers'⟩
      rw [reject, rejectFirst_eq others result 0, hasked, description?]
      cases hfirst : firstDescription? others with
      | none => exact ⟨_, rfl, hsame.trans hfirst, .chained hothers'⟩
      | some description => exact ⟨_, rfl, rfl, .chainedDecided others' description⟩
  | @steps others hsettled ih =>
      intro result
      rcases rejectInOrder_eq hsettled ih (stepResult result) 0 with
        ⟨others', hasked, hsame, hothers'⟩
      rw [reject, rejectStep_eq others result 0, hasked, description?]
      cases hfirst : firstDescription? others with
      | none => exact ⟨_, rfl, hsame.trans hfirst, .steps hothers'⟩
      | some description => exact ⟨_, rfl, rfl, .stepsDecided others' description⟩

theorem IsFixed.followsDescription {r : Rejection} (h : r.IsFixed) : r.FollowsDescription :=
  h.isSettled.followsDescription

theorem FollowsDescription.reject_eq {r : Rejection} (h : r.FollowsDescription) (result : Value) :
    (r.description? = none ∧ exists r', r.reject result = (false, r')) ∨
    (exists description r', r.description? = some description ∧
      r.reject result = (true, r') ∧ r'.description? = some description) := by
  rcases h result with ⟨r', hreject, hkept, _⟩
  cases hr : r.description? with
  | none => exact Or.inl ⟨rfl, r', by rw [hreject, hr]; rfl⟩
  | some description =>
      exact Or.inr ⟨description, r', rfl, by rw [hreject, hr]; rfl, hkept.trans hr⟩

end Rejection

/-!
# Verdicts
-/

namespace Outcome

/-- The verdict about a result: if it is rejected, the description of the failure then. -/
def verdict? (o : Outcome) (result : Value) : Option (Option String) :=
  match o.reject result with
  | (true, o') => some o'.description?
  | (false, _) => none

def IsFixed (o : Outcome) : Prop :=
  o.rejection.IsFixed

theorem verdict?_of_isFixed {o : Outcome} (h : o.IsFixed) (result : Value) :
    o.verdict? result = o.description?.map some := by
  rcases (Rejection.IsFixed.followsDescription h).reject_eq result with
    ⟨hr, r', hreject⟩ | ⟨description, r', hr, hreject, hkept⟩
  · simp [verdict?, reject, description?, hreject, hr]
  · simp [verdict?, reject, description?, hreject, hr, hkept]

theorem isFixed_send (operation : Value) : (send operation).IsFixed :=
  .never

theorem isFixed_discarded : discarded.IsFixed :=
  .never

theorem isFixed_rejected (operation : Value) (description : String) :
    (rejected operation description).IsFixed :=
  .always description

theorem isFixed_chained {outcomes : List Outcome} (h : ∀ o ∈ outcomes, o.IsFixed) :
    (chained outcomes).IsFixed := by
  apply Rejection.IsFixed.chained
  intro r hr
  rcases List.mem_map.mp hr with ⟨o, ho, rfl⟩
  exact h o ho

theorem verdict?_chained_singleton {o : Outcome} (h : o.IsFixed) (result : Value) :
    (chained [o]).verdict? result = o.description?.map some := by
  rw [verdict?_of_isFixed (isFixed_chained (List.forall_mem_singleton.mpr h)), description?,
    description?, chained, List.map_singleton, Rejection.description?]
  cases hdescription : o.rejection.description? <;>
    simp [Rejection.firstDescription?, hdescription]

theorem isFixed_mapOperation {f : Value -> Except ValueError Value} {o o' : Outcome}
    (ho : o.IsFixed) (h : o.mapOperation f = .ok o') : o'.IsFixed := by
  unfold mapOperation at h
  cases hoperation : o.operation? with
  | none =>
      rw [hoperation] at h
      cases h
      exact ho
  | some operation =>
      rw [hoperation] at h
      cases hf : f operation with
      | error e =>
          simp only [hf] at h
          cases h
      | ok changed =>
          simp only [hf] at h
          cases h
          exact ho

/-!
# Composite operations
-/

/-- What a composite operation is made of: the operations that its steps leave to send, the
rejections of these steps, and the results of all. -/
theorem composite_eq_ok {operation : Value} {steps : List Outcome} {o : Outcome}
    (h : composite operation steps = .ok o) :
    o.rejection = .steps ((sentSteps steps).map Outcome.rejection) none ∧
    o.onResult = composeResult steps ∧
    ((sentSteps steps = [] ∧ o.operation? = none) ∨
      (sentSteps steps ≠ [] ∧ exists sent, o.operation? = some sent ∧
        operation.set Operation.stepsKey (.list ((sentSteps steps).filterMap Outcome.operation?)) =
          .ok sent)) := by
  simp only [composite] at h
  by_cases hempty : sentSteps steps = []
  · simp only [hempty, List.isEmpty_nil, if_true] at h
    cases h
    exact ⟨by rw [hempty], rfl, Or.inl ⟨hempty, rfl⟩⟩
  · have hsome : (sentSteps steps).isEmpty = false := by
      simpa using hempty
    rw [hsome] at h
    cases hset : operation.set Operation.stepsKey
        (.list ((sentSteps steps).filterMap Outcome.operation?)) with
    | error e =>
        simp only [hset] at h
        cases h
    | ok sent =>
        simp only [hset] at h
        cases h
        exact ⟨rfl, rfl, Or.inr ⟨hempty, sent, rfl, rfl⟩⟩

theorem isFixed_composite {operation : Value} {steps : List Outcome} {o : Outcome}
    (hsteps : ∀ step ∈ steps, step.IsFixed) (h : composite operation steps = .ok o) :
    o.IsFixed := by
  rw [IsFixed, (composite_eq_ok h).1]
  apply Rejection.IsFixed.steps
  intro r hr
  rcases List.mem_map.mp hr with ⟨step, hstep, rfl⟩
  exact hsteps step (List.mem_filter.mp hstep).1

theorem verdict?_composite {operation : Value} {steps : List Outcome} {o : Outcome}
    (hsteps : ∀ step ∈ steps, step.IsFixed) (h : composite operation steps = .ok o)
    (result result' : Value) :
    o.verdict? result = (sentSteps steps).findSome? fun step => step.verdict? result' := by
  have hdescription : o.description? = (sentSteps steps).findSome? Outcome.description? := by
    rw [Outcome.description?, (composite_eq_ok h).1, Rejection.description?,
      Rejection.firstDescription?_eq_findSome?, List.findSome?_map]
    rfl
  rw [verdict?_of_isFixed (isFixed_composite hsteps h), hdescription]
  have hverdicts : ∀ step ∈ sentSteps steps,
      step.verdict? result' = step.description?.map some := fun step hstep =>
    verdict?_of_isFixed (hsteps step (List.mem_filter.mp hstep).1) result'
  generalize sentSteps steps = sent at hverdicts
  induction sent with
  | nil =>
      rfl
  | cons step rest ih =>
      have hrest := ih fun other hother => hverdicts other (List.mem_cons_of_mem step hother)
      have hfirst := hverdicts step List.mem_cons_self
      cases hstep : step.description? <;> simp_all

end Outcome
end MixedDomain
