import MixedDomain.Proofs.Registry.Composite

/-!
# Reports of nested steps

## Paths

A step of a composite operation that is nested in others has a path, the numbers of
the steps on the way to it.  The report of the step is found in the response to the
caller under the names of these steps.

## What is reported

A composite step is replaced by plain success when nothing of it is sent.  What is
nested in it is then not reported.  All other steps are: a step is reported exactly
when something is sent of every composite step that it is nested in.
-/

namespace MixedDomain

namespace Operation

/-- The steps of a composite operation; other operations have none. -/
def ownSteps (operation : Value) : List Value :=
  match name operation, steps operation with
  | .ok called, .ok items => if called = composite then items else []
  | _, _ => []

def stepAt? : List Nat -> Value -> Option Value
  | [], operation => some operation
  | i :: rest, operation => (ownSteps operation)[i]?.bind (stepAt? rest)

theorem ownSteps_of_composite {operation : Value} {items : List Value}
    (hname : name operation = .ok composite) (hsteps : steps operation = .ok items) :
    ownSteps operation = items := by
  rw [ownSteps, hname, hsteps]
  exact if_pos rfl

theorem name_of_stepAt?_cons {operation step : Value} {i : Nat} {rest : List Nat}
    (h : stepAt? (i :: rest) operation = some step) : name operation = .ok composite := by
  rcases Option.bind_eq_some_iff.mp h with ⟨item, hitem, _⟩
  unfold ownSteps at hitem
  split at hitem
  · rename_i called items hname _
    split at hitem
    · rename_i hcalled
      rw [hname, hcalled]
    · simp at hitem
  · simp at hitem

/-- Whether a step is nested in another one, which stands on the way to it. -/
def IsAround (path : List Nat) (operation inner : Value) : Prop :=
  exists n, 0 < n ∧ n < path.length ∧ stepAt? (path.take n) operation = some inner

theorem not_isAround_nil (operation inner : Value) : ¬ IsAround [] operation inner := by
  rintro ⟨n, _, hlength, _⟩
  exact Nat.not_lt_zero n hlength

theorem not_isAround_singleton (i : Nat) (operation inner : Value) :
    ¬ IsAround [i] operation inner := by
  rintro ⟨n, hpositive, hlength, _⟩
  exact absurd hlength (Nat.not_lt.mpr hpositive)

theorem stepAt?_cons {operation item : Value} {i : Nat}
    (hitem : (ownSteps operation)[i]? = some item) (rest : List Nat) :
    stepAt? (i :: rest) operation = stepAt? rest item := by
  rw [stepAt?, hitem, Option.bind_some]

theorem forall_isAround_cons {operation item : Value} {i j : Nat} {rest : List Nat}
    (hitem : (ownSteps operation)[i]? = some item) {p : Value -> Prop} :
    (forall inner, IsAround (i :: j :: rest) operation inner -> p inner) ↔
      p item ∧ forall inner, IsAround (j :: rest) item inner -> p inner := by
  constructor
  · intro hall
    constructor
    · apply hall item
      refine ⟨1, Nat.one_pos, ?_, ?_⟩
      · simp
      · rw [List.take_succ_cons, stepAt?_cons hitem]
        rfl
    · rintro inner ⟨n, _, hlength, hinner⟩
      apply hall inner
      refine ⟨n + 1, Nat.succ_pos n, Nat.succ_lt_succ hlength, ?_⟩
      rw [List.take_succ_cons, stepAt?_cons hitem, hinner]
  · rintro ⟨hfirst, hall⟩ inner ⟨n, hpositive, hlength, hinner⟩
    cases n with
    | zero => exact absurd hpositive (Nat.lt_irrefl 0)
    | succ n =>
        rw [List.take_succ_cons, stepAt?_cons hitem] at hinner
        cases n with
        | zero =>
            cases hinner
            exact hfirst
        | succ n =>
            exact hall inner ⟨n + 1, Nat.succ_pos n, Nat.lt_of_succ_lt_succ hlength, hinner⟩

end Operation

namespace Response

def reportAt? : List Nat -> Value -> Option Value
  | [], response => some response
  | i :: rest, response => (step? i response).bind (reportAt? rest)

/-- Whether a response is undefined or an object, and so are the results of steps in it. -/
inductive IsTree : Value -> Prop where
  | undefined : IsTree .undefined
  | object {entries : List (String × Value)} :
      (forall i own, step? i (.object entries) = some own -> IsTree own) ->
        IsTree (.object entries)

theorem IsTree.stepResult {response : Value} (h : IsTree response) (i : Nat) :
    IsTree (stepResult response i) := by
  rw [stepResult_eq]
  cases hown : step? i response with
  | none => exact .undefined
  | some own =>
      cases h with
      | undefined => cases hown
      | object hsteps => exact hsteps i own hown

theorem IsTree.cases {response : Value} (h : IsTree response) :
    response = .undefined ∨ exists entries, response = .object entries := by
  cases h with
  | undefined => exact Or.inl rfl
  | object _ => exact Or.inr ⟨_, rfl⟩

end Response

theorem Outcome.resolve_of_verdict? {o : Outcome} {result : Value} (h : o.verdict? result = none) :
    (o.resolve result).1 = o.onResult result := by
  unfold verdict? reject at h
  unfold resolve reject
  generalize o.rejection.reject result = decision at h
  rcases decision with ⟨rejects, rejection⟩
  cases rejects with
  | true => cases h
  | false => rfl

namespace Registry

variable {r : Registry} {c c' : Context} {operation item response : Value} {o : Outcome}

def Sends (r : Registry) (c : Context) (operation : Value) : Prop :=
  exists made, r.Makes c operation made ∧ made.isDiscarded = false

theorem step?_onResult (hr : r.IsBuiltIn)
    (hname : Operation.name operation = .ok Operation.composite)
    (hmakes : r.Makes c operation o) (hresponse : Response.IsTree response) {i : Nat}
    (hitem : (Operation.ownSteps operation)[i]? = some item) :
    exists made sent, r.Makes c item made ∧
      Response.step? i (o.onResult response) = some (made.resultAfter sent response) := by
  rcases exists_run_of_makes hmakes with ⟨_, hrun⟩
  rcases makes_of_composite hr hname hrun with ⟨items, steps, hsteps, hall, hcomposite⟩
  rcases Outcome.composite_eq_ok hcomposite with ⟨_, honResult, _⟩
  rw [Operation.ownSteps_of_composite hname hsteps] at hitem
  rcases List.getElem?_eq_some_iff.mp hitem with ⟨hi, rfl⟩
  have hi' : i < steps.length := hall.length_eq ▸ hi
  have hmade : r.Makes c items[i] steps[i] := List.Forall₂.get hall hi hi'
  rcases Outcome.get?_composeResult steps hresponse.cases with ⟨named, hnamed, _, hresults, _⟩
  refine ⟨steps[i], ((steps.take i).filterMap Outcome.operation?).length, hmade, ?_⟩
  rw [Response.step?, honResult, hnamed]
  exact hresults i steps[i] (List.getElem?_eq_getElem hi')

theorem sends_iff_of_makes {made : Outcome} (h : r.Makes c item made) :
    r.Sends c item ↔ made.isDiscarded = false := by
  constructor
  · rintro ⟨made', hmakes, hsent⟩
    have hsame : made' = made := Except.ok.inj (hmakes.symm.trans h)
    exact hsame ▸ hsent
  · intro hsent
    exact ⟨made, h, hsent⟩

/-- By induction on the path: below a step that is not sent nothing is reported, and the result of a
step that is sent is made from a part of the response. -/
theorem isSome_reportAt?_onResult (hr : r.IsBuiltIn) {path : List Nat} {step : Value}
    (hmakes : r.Makes c operation o) (hresponse : Response.IsTree response)
    (hstep : Operation.stepAt? path operation = some step) :
    (Response.reportAt? path (o.onResult response)).isSome ↔
      forall inner, Operation.IsAround path operation inner -> r.Sends c inner := by
  induction path generalizing operation o response with
  | nil =>
      simp [Response.reportAt?, Operation.not_isAround_nil]
  | cons i rest ih =>
      have hname := Operation.name_of_stepAt?_cons hstep
      rcases Option.bind_eq_some_iff.mp hstep with ⟨item, hitem, hnested⟩
      rcases step?_onResult hr hname hmakes hresponse hitem with ⟨made, sent, hmade, hreport⟩
      rw [Response.reportAt?, hreport, Option.bind_some]
      cases rest with
      | nil =>
          simp [Response.reportAt?, Operation.not_isAround_singleton]
      | cons j rest =>
          rw [Operation.forall_isAround_cons hitem, sends_iff_of_makes hmade]
          cases hoperation : made.operation? with
          | none =>
              have hplain : Response.reportAt? (j :: rest) (made.resultAfter sent response) =
                  none := by
                rw [Outcome.resultAfter, hoperation]
                rfl
              simp [hplain, Outcome.isDiscarded, hoperation]
          | some sentItem =>
              have hown : made.resultAfter sent response =
                  made.onResult (stepResult response sent) := by
                rw [Outcome.resultAfter, hoperation]
              rw [hown, ih hmade (hresponse.stepResult sent) hnested]
              simp [Outcome.isDiscarded, hoperation]

/-- For every registry of a configuration, every composite operation that is transformed and not
rejected, and every response of the target that is made of objects: the step at a path is reported
to the caller exactly when each step that it is nested in leaves something to send. -/
theorem isSome_reportAt?_resolve {config : Config} {registry : Registry}
    (hregistry : config.registry = .ok registry) {operation : Value} {c c' : Context} {o : Outcome}
    (hrun : TransformM.run (registry.transformOperation operation) c = (.ok o, c'))
    {response : Value} (hresponse : Response.IsTree response)
    (hverdict : o.verdict? response = none) {path : List Nat} {step : Value}
    (hstep : Operation.stepAt? path operation = some step) :
    (Response.reportAt? path (o.resolve response).1).isSome ↔
      forall inner, Operation.IsAround path operation inner -> registry.Sends c inner := by
  have hmakes : registry.Makes c operation o := congrArg Prod.fst hrun
  rw [Outcome.resolve_of_verdict? hverdict]
  exact isSome_reportAt?_onResult (Config.isBuiltIn_registry hregistry) hmakes hresponse hstep

end Registry

/-!
# Composite operations in the chain

The second hop discards the write, whatever the attribute.
-/

namespace MailChain

def writeHost : Value :=
  writeTls.put Operation.attributeKey (.string "host")

def nestedFlush : Value :=
  compositeOf [compositeOf [writeHost, flush]]

def nestedWrite : Value :=
  compositeOf [compositeOf [writeHost]]

end MailChain

open MailChain in
theorem Registry.isSome_reportAt?_nestedFlush :
    TransformM.run (registry.transformOperation nestedFlush) context =
      (.ok (outcomeOf nestedFlush), context) ∧
    Response.IsTree .undefined ∧
    (outcomeOf nestedFlush).verdict? .undefined = none ∧
    Operation.stepAt? [0, 0] nestedFlush = some writeHost ∧
    (Response.reportAt? [0, 0] ((outcomeOf nestedFlush).resolve .undefined).1).isSome := by
  have hrun : TransformM.run (registry.transformOperation nestedFlush) context =
      (.ok (outcomeOf nestedFlush), context) := by
    rfl
  have hverdict : (outcomeOf nestedFlush).verdict? .undefined = none := by
    rfl
  have hstep : Operation.stepAt? [0, 0] nestedFlush = some writeHost := by
    rfl
  have hitem : (Operation.ownSteps nestedFlush)[0]? = some (compositeOf [writeHost, flush]) := by
    rfl
  have hinner : registry.Sends context (compositeOf [writeHost, flush]) :=
    ⟨outcomeOf (compositeOf [writeHost, flush]), rfl, rfl⟩
  refine ⟨hrun, .undefined, hverdict, hstep, ?_⟩
  apply (Registry.isSome_reportAt?_resolve registry_config hrun .undefined hverdict hstep).mpr
  rw [Operation.forall_isAround_cons hitem]
  constructor
  · exact hinner
  · intro inner haround
    exact absurd haround (Operation.not_isAround_singleton 0 _ inner)

open MailChain in
/-- The only step of the inner composite operation is discarded, and is not reported. -/
theorem Registry.not_isSome_reportAt?_nestedWrite : config.registry = .ok registry ∧
    Operation.name nestedWrite = .ok Operation.composite ∧
    TransformM.run (registry.transformOperation nestedWrite) context =
      (.ok (outcomeOf nestedWrite), context) ∧
    Response.IsTree .undefined ∧
    (outcomeOf nestedWrite).verdict? .undefined = none ∧
    ¬ (forall path step, Operation.stepAt? path nestedWrite = some step ->
      (Response.reportAt? path ((outcomeOf nestedWrite).resolve .undefined).1).isSome) := by
  have hnone : Response.reportAt? [0, 0] ((outcomeOf nestedWrite).resolve .undefined).1 = none := by
    rfl
  refine ⟨registry_config, rfl, rfl, .undefined, rfl, ?_⟩
  intro hall
  have hreported := hall [0, 0] writeHost rfl
  rw [hnone] at hreported
  cases hreported

end MixedDomain
