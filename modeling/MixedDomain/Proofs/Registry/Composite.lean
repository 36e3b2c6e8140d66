import MixedDomain.Proofs.Config.BuiltIn
import MixedDomain.Proofs.Registry.Operations

/-!
# Composite operations

## Two numberings

The caller numbers all steps, the target only those that were sent.  The result of
a step is found under the number of steps sent before it, and is given to the
caller under its own number.  A step of which the target has no result makes of an
undefined one what the caller is told.

## Verdicts

A composite operation gives the verdict of the first rejecting step among those
that were sent.  A step that was rejected by one hop and left nothing to send by a
later one is not among them.
-/

namespace MixedDomain

/-!
# Names and results of steps
-/

theorem stepKey_injective {i j : Nat} (h : stepKey i = stepKey j) : i = j := by
  have hnumber : (i + 1).repr = (j + 1).repr := (String.append_right_inj "step-").mp h
  have hdigits : Nat.toDigits 10 (i + 1) = Nat.toDigits 10 (j + 1) := by
    rw [← Nat.toList_repr, hnumber, Nat.toList_repr]
  have hsuccessor : i + 1 = j + 1 := by
    rw [← Nat.ofDigitChars_ten_toDigits (n := i + 1), hdigits, Nat.ofDigitChars_ten_toDigits]
  exact Nat.succ.inj hsuccessor

def Response.step? (i : Nat) (response : Value) : Option Value :=
  (response.get? resultKey).bind (Value.get? (stepKey i))

theorem stepResult_eq (response : Value) (i : Nat) :
    stepResult response i = (Response.step? i response).getD .undefined := by
  rfl

namespace Outcome

/-- What the caller is told of a step when so many steps before it have been sent: plain success if
it is not sent, and otherwise what it makes of the result that the target has of it. -/
inductive IsReported (step : Outcome) (sent : Nat) (response : Value) : Value -> Prop where
  | discarded (hnone : step.operation? = none) :
      IsReported step sent response (.object [(Response.outcomeKey, .string Response.success)])
  | made {operation own : Value} (hsent : step.operation? = some operation)
      (hown : Response.step? sent response = some own) :
      IsReported step sent response (step.onResult own)
  | missing {operation : Value} (hsent : step.operation? = some operation)
      (hnone : Response.step? sent response = none) :
      IsReported step sent response (step.onResult .undefined)

theorem IsReported.eq_of_discarded {step : Outcome} {sent : Nat} {response entry : Value}
    (h : step.IsReported sent response entry) (hnone : step.operation? = none) :
    entry = .object [(Response.outcomeKey, .string Response.success)] := by
  cases h with
  | discarded => rfl
  | made hsent | missing hsent =>
      rw [hnone] at hsent
      cases hsent

theorem IsReported.eq_of_made {step : Outcome} {sent : Nat} {response entry operation own : Value}
    (h : step.IsReported sent response entry) (hsent : step.operation? = some operation)
    (hown : Response.step? sent response = some own) : entry = step.onResult own := by
  cases h with
  | discarded hnone =>
      rw [hnone] at hsent
      cases hsent
  | made _ hsame =>
      rw [hsame] at hown
      cases hown
      rfl
  | missing _ hnone =>
      rw [hnone] at hown
      cases hown

def resultAfter (step : Outcome) (sent : Nat) (result : Value) : Value :=
  match step.operation? with
  | none => Response.ofResult .undefined
  | some _ => step.onResult (stepResult result sent)

theorem isReported_resultAfter (step : Outcome) (sent : Nat) (response : Value) :
    step.IsReported sent response (step.resultAfter sent response) := by
  unfold resultAfter
  cases hoperation : step.operation? with
  | none => exact .discarded hoperation
  | some operation =>
      cases hown : Response.step? sent response with
      | some own =>
          rw [stepResult_eq, hown]
          exact .made hoperation hown
      | none =>
          rw [stepResult_eq, hown]
          exact .missing hoperation hown

theorem keys_nameSteps (index : Nat) (vs : List Value) :
    Entries.keys (nameSteps index vs) = (List.range' index vs.length).map stepKey := by
  induction vs generalizing index with
  | nil =>
      rfl
  | cons v rest ih =>
      have hrest := ih (index + 1)
      simp only [Entries.keys] at hrest
      simp [nameSteps, Entries.keys, hrest, List.range'_succ]

theorem get?_nameSteps {index i : Nat} {vs : List Value} {v : Value} (h : vs[i]? = some v) :
    Entries.get? (stepKey (index + i)) (nameSteps index vs) = some v := by
  induction vs generalizing index i with
  | nil =>
      simp at h
  | cons first rest ih =>
      cases i with
      | zero =>
          simp only [List.getElem?_cons_zero, Option.some.injEq] at h
          simp [nameSteps, Entries.get?, h]
      | succ i =>
          have hne : stepKey index ≠ stepKey (index + (i + 1)) := by
            intro heq
            have hindex := stepKey_injective heq
            omega
          have hshift : index + (i + 1) = index + 1 + i := by
            omega
          rw [List.getElem?_cons_succ] at h
          rw [nameSteps, Entries.get?, if_neg hne, hshift]
          exact ih h

theorem stepResults_cons (result : Value) (step : Outcome) (rest : List Outcome) (sent : Nat) :
    stepResults result (step :: rest) sent =
      step.resultAfter sent result ::
        stepResults result rest (sent + ([step].filterMap Outcome.operation?).length) := by
  cases hoperation : step.operation? <;> simp [stepResults, resultAfter, hoperation]

theorem length_stepResults (result : Value) (steps : List Outcome) (sent : Nat) :
    (stepResults result steps sent).length = steps.length := by
  induction steps generalizing sent with
  | nil =>
      rfl
  | cons step rest ih =>
      rw [stepResults_cons, List.length_cons, ih, List.length_cons]

theorem stepResults_getElem? {result : Value} {steps : List Outcome} {i sent : Nat}
    {step : Outcome} (h : steps[i]? = some step) :
    (stepResults result steps sent)[i]? =
      some (step.resultAfter (sent + ((steps.take i).filterMap Outcome.operation?).length)
        result) := by
  induction steps generalizing i sent with
  | nil =>
      simp at h
  | cons first rest ih =>
      rw [stepResults_cons]
      cases i with
      | zero =>
          simp only [List.getElem?_cons_zero, Option.some.injEq] at h
          simp [h]
      | succ i =>
          rw [List.getElem?_cons_succ] at h
          have hcount : ((first :: rest).take (i + 1)).filterMap Outcome.operation? =
              [first].filterMap Outcome.operation? ++
                (rest.take i).filterMap Outcome.operation? := by
            rw [List.take_succ_cons, ← List.filterMap_append, List.singleton_append]
          rw [List.getElem?_cons_succ, ih h, hcount, List.length_append, Nat.add_assoc]

/-- The results of steps under their names: the names are numbered, and each result is the one of
the step of this number. -/
theorem get?_composeResult (steps : List Outcome) {result : Value}
    (hresult : result = .undefined ∨ exists entries, result = .object entries) :
    exists named, (composeResult steps result).get? Response.resultKey = some (.object named) ∧
      Entries.keys named = (List.range steps.length).map stepKey ∧
      (forall i step, steps[i]? = some step -> Entries.get? (stepKey i) named =
        some (step.resultAfter ((steps.take i).filterMap Outcome.operation?).length result)) ∧
      forall key, key ≠ Response.resultKey -> (composeResult steps result).get? key =
        (if result.isDefined then result else Response.ofResult .undefined).get? key := by
  refine ⟨nameSteps 0 (stepResults result steps 0), ?_, ?_, ?_, ?_⟩
  · rcases hresult with rfl | ⟨entries, rfl⟩
    · exact Entries.get?_insert_self _ _ _
    · exact Entries.get?_insert_self _ _ _
  · rw [keys_nameSteps, length_stepResults, List.range_eq_range']
  · intro i step hstep
    have hplace := @stepResults_getElem? result steps i 0 step hstep
    have hfound := @get?_nameSteps 0 i _ _ hplace
    simpa using hfound
  · intro key hkey
    rcases hresult with rfl | ⟨entries, rfl⟩
    · exact Entries.get?_insert_of_ne hkey _ _
    · exact Entries.get?_insert_of_ne hkey _ _

end Outcome

/-!
# What is sent
-/

theorem Outcome.sentSteps_cons (step : Outcome) (rest : List Outcome) :
    sentSteps (step :: rest) =
      if step.isDiscarded then sentSteps rest else step :: sentSteps rest := by
  cases hdiscarded : step.isDiscarded <;> simp [sentSteps, hdiscarded]

theorem Outcome.filterMap_sentSteps (steps : List Outcome) :
    (sentSteps steps).filterMap Outcome.operation? = steps.filterMap Outcome.operation? := by
  induction steps with
  | nil =>
      rfl
  | cons step rest ih =>
      cases hoperation : step.operation? <;> simp [sentSteps_cons, isDiscarded, hoperation, ih]

theorem Outcome.sentSteps_eq_nil_iff (steps : List Outcome) :
    sentSteps steps = [] ↔ steps.filterMap Outcome.operation? = [] := by
  simp [sentSteps, isDiscarded, List.filter_eq_nil_iff, List.filterMap_eq_nil_iff]

theorem Operation.get?_of_set_steps {operation sent : Value} {steps : Value}
    (hname : Operation.name operation = .ok Operation.composite)
    (h : (operation.erase stepsKey).set stepsKey steps = .ok sent) :
    sent.get? stepsKey = some steps ∧
      forall key, key ≠ stepsKey -> sent.get? key = operation.get? key := by
  cases operation with
  | object entries =>
      cases h
      refine ⟨Entries.get?_insert_self _ _ _, ?_⟩
      intro key hkey
      exact (Entries.get?_insert_of_ne hkey _ _).trans (Entries.get?_erase_of_ne hkey entries)
  | undefined => cases hname
  | _ => cases h

/-!
# A chain of versions

The subsystem has no attribute `tls` in version 2, and attributes are not written any more in
version 1.
-/

namespace MailChain

def address : Address :=
  [Address.subsystemElement "mail"]

def config : Config :=
  { target? := none
    registrations := []
    subsystems := [
      { name := "mail"
        versions := []
        chain? := some
          { current := ⟨3, 0, 0⟩
            targets := [⟨1, 0, 0⟩]
            hops := [
              { source := ⟨3, 0, 0⟩
                target := ⟨2, 0, 0⟩
                resource := .node [⟨["tls"], none, [], [.defined], [], false, none, none⟩]
                  [] [] [] [] [] },
              { source := ⟨2, 0, 0⟩
                target := ⟨1, 0, 0⟩
                resource := .node [] [Operation.writeAttribute] [] [] [] [] }] } }] }

def registry : Registry :=
  match config.registry with
  | .ok r => r
  | .error _ => Registry.empty

def context : Context :=
  Context.start ⟨"legacy-host", ⟨1, 4, 0⟩, [("mail", ⟨1, 0, 0⟩)], .host⟩
    (config.model Resource.empty)

theorem registry_config : config.registry = .ok registry := by
  rfl

/-- The first hop rejects this operation, and the second one discards it. -/
def writeTls : Value :=
  .object [(Operation.nameKey, .string Operation.writeAttribute),
    (Operation.addressKey, address.toValue), (Operation.attributeKey, .string "tls"),
    (Operation.valueKey, .boolean true)]

def flush : Value :=
  Operation.create "flush" address

def response : Value :=
  .object [("outcome", .string "success"),
    ("result", .object [
      ("step-1", .object [("outcome", .string "success"), ("result", .int 1)]),
      ("step-2", .object [("outcome", .string "success"), ("result", .int 2)])]),
    ("server-groups", .emptyObject)]

def compositeOf (steps : List Value) : Value :=
  .object [(Operation.nameKey, .string Operation.composite), (Operation.stepsKey, .list steps)]

def outcomeOf (operation : Value) : Outcome :=
  match (TransformM.run (registry.transformOperation operation) context).1 with
  | .ok o => o
  | .error _ => Outcome.discarded

theorem eq_map_of_makes (items : List Value) {steps : List Outcome}
    (hmakes : List.Forall₂ (registry.Makes context) items steps) :
    steps = items.map outcomeOf := by
  induction hmakes with
  | nil => rfl
  | @cons item step _ _ hmade _ ih =>
      have hsame : outcomeOf item = step := by
        unfold outcomeOf
        rw [hmade]
      rw [List.map_cons, hsame, ih]

end MailChain

namespace Registry

/-- For every registry of a configuration and every composite operation that is transformed: what is
sent holds in order the operations that the steps alone leave to send, and nothing is sent if there
are none.  The response for the caller holds the results of all steps under their numbers. -/
theorem onResult_transformOperation_composite {config : Config} {registry : Registry}
    (hregistry : config.registry = .ok registry) {operation : Value}
    (hname : Operation.name operation = .ok Operation.composite) {c c' : Context} {o : Outcome}
    (hrun : TransformM.run (registry.transformOperation operation) c = (.ok o, c')) :
    exists items steps, Operation.steps operation = .ok items ∧
      List.Forall₂ (registry.Makes c) items steps ∧
      (o.operation? = none ↔ steps.filterMap Outcome.operation? = []) ∧
      (∀ sent ∈ o.operation?,
        sent.get? Operation.stepsKey = some (.list (steps.filterMap Outcome.operation?)) ∧
        forall key, key ≠ Operation.stepsKey -> sent.get? key = operation.get? key) ∧
      forall result, (result = .undefined ∨ exists entries, result = .object entries) ->
        exists named, (o.onResult result).get? Response.resultKey = some (.object named) ∧
          Entries.keys named = (List.range items.length).map stepKey ∧
          (forall i step, steps[i]? = some step -> exists entry,
            Entries.get? (stepKey i) named = some entry ∧ step.IsReported
              ((steps.take i).filterMap Outcome.operation?).length result entry) ∧
          forall key, key ≠ Response.resultKey -> (o.onResult result).get? key =
            (if result.isDefined then result else Response.ofResult .undefined).get? key := by
  have hr := Config.isBuiltIn_registry hregistry
  rcases makes_of_composite hr hname hrun with ⟨items, steps, hitems, hmakes, hcomposite⟩
  rcases Outcome.composite_eq_ok hcomposite with ⟨_, honResult, hsent⟩
  refine ⟨items, steps, hitems, hmakes, ?_, ?_, ?_⟩
  · rw [← Outcome.sentSteps_eq_nil_iff]
    rcases hsent with ⟨hempty, hnone⟩ | ⟨hnonempty, sent, hsome, _⟩
    · simp [hempty, hnone]
    · simp [hnonempty, hsome]
  · intro sent hmem
    rcases hsent with ⟨_, hnone⟩ | ⟨_, sent', hsome, hset⟩
    · rw [hnone] at hmem
      cases hmem
    · rw [hsome] at hmem
      cases hmem
      rw [Outcome.filterMap_sentSteps] at hset
      exact Operation.get?_of_set_steps hname hset
  · intro result hresult
    rw [honResult, hmakes.length_eq]
    rcases Outcome.get?_composeResult steps hresult with ⟨named, hnamed, hkeys, hentries, hothers⟩
    refine ⟨named, hnamed, hkeys, ?_, hothers⟩
    intro i step hstep
    exact ⟨_, hentries i step hstep, Outcome.isReported_resultAfter step _ result⟩

end Registry

open MailChain in
/-- The first step is not sent, so that the target calls the second one its first. -/
theorem Registry.onResult_composite_writeTls_flush :
    Operation.name (compositeOf [writeTls, flush, flush]) = .ok Operation.composite ∧
    exists named, ((outcomeOf (compositeOf [writeTls, flush, flush])).onResult response).get?
        "result" = some (.object named) ∧
      Entries.keys named = ["step-1", "step-2", "step-3"] ∧
      Entries.get? "step-1" named = some (.object [("outcome", .string "success")]) ∧
      Entries.get? "step-2" named =
        some (.object [("outcome", .string "success"), ("result", .int 1)]) ∧
      Entries.get? "step-3" named =
        some (.object [("outcome", .string "success"), ("result", .int 2)]) ∧
      ((outcomeOf (compositeOf [writeTls, flush, flush])).onResult response).get?
        "server-groups" = some .emptyObject := by
  have hname : Operation.name (compositeOf [writeTls, flush, flush]) = .ok Operation.composite := by
    rfl
  have hrun : TransformM.run (registry.transformOperation (compositeOf [writeTls, flush, flush]))
      context = (.ok (outcomeOf (compositeOf [writeTls, flush, flush])), context) := by
    rfl
  rcases Registry.onResult_transformOperation_composite registry_config hname hrun with
    ⟨items, steps, hitems, hmakes, _, _, hresults⟩
  cases hitems
  have hsteps : steps = [outcomeOf writeTls, outcomeOf flush, outcomeOf flush] :=
    eq_map_of_makes [writeTls, flush, flush] hmakes
  subst hsteps
  rcases hresults response (Or.inr ⟨_, rfl⟩) with ⟨named, hnamed, hkeys, hentries, hothers⟩
  refine ⟨hname, named, hnamed, hkeys, ?first, ?second, ?third, hothers "server-groups" (by decide)⟩
  case first =>
    rcases hentries 0 _ rfl with ⟨_, hentry, hreported⟩
    exact hentry.trans (congrArg some (hreported.eq_of_discarded rfl))
  case second =>
    rcases hentries 1 _ rfl with ⟨_, hentry, hreported⟩
    exact hentry.trans (congrArg some (hreported.eq_of_made rfl rfl))
  case third =>
    rcases hentries 2 _ rfl with ⟨_, hentry, hreported⟩
    exact hentry.trans (congrArg some (hreported.eq_of_made rfl rfl))

/-!
# Which step decides
-/

theorem findSome?_eq_bind_find? {item answer : Type} (f : item -> Option answer)
    (items : List item) :
    items.findSome? f = (items.find? fun x => (f x).isSome).bind f := by
  induction items with
  | nil =>
      rfl
  | cons x rest ih =>
      cases hx : f x <;> simp [hx, ih]

namespace Outcome

theorem find?_sentSteps {p : Outcome -> Bool} {steps : List Outcome} {first : Outcome}
    (hfind : steps.find? p = some first) (hsent : first.isDiscarded = false) :
    (sentSteps steps).find? p = some first := by
  induction steps with
  | nil =>
      cases hfind
  | cons step rest ih =>
      cases hp : p step with
      | true =>
          simp only [List.find?_cons, hp, Option.some.injEq] at hfind
          simp [sentSteps_cons, hfind, hsent, hfind ▸ hp]
      | false =>
          simp only [List.find?_cons, hp] at hfind
          have hrest := ih hfind
          cases hdiscarded : step.isDiscarded <;> simp [sentSteps_cons, hdiscarded, hp, hrest]

/-- The steps that are sent answer like all steps unless the first answer is one of a discarded step
that they do not give. -/
theorem findSome?_sentSteps_eq_iff {answer : Type} (f : Outcome -> Option answer)
    (steps : List Outcome) :
    (sentSteps steps).findSome? f = steps.findSome? f ↔
      forall first, steps.find? (fun step => (f step).isSome) = some first ->
        first.isDiscarded = true -> (sentSteps steps).findSome? f = f first := by
  constructor
  · intro hsame first hfirst _
    rw [hsame, findSome?_eq_bind_find?, hfirst]
    rfl
  · intro hdiscarded
    cases hfind : steps.find? fun step => (f step).isSome with
    | none =>
        have hnone : ∀ step ∈ steps, f step = none := by
          simpa using List.find?_eq_none.mp hfind
        rw [List.findSome?_eq_none_iff.mpr hnone, List.findSome?_eq_none_iff]
        intro step hstep
        exact hnone step (List.mem_filter.mp hstep).1
    | some first =>
        have hall : steps.findSome? f = f first := by
          rw [findSome?_eq_bind_find?, hfind]
          rfl
        rw [hall]
        cases hfirst : first.isDiscarded with
        | true => exact hdiscarded first hfind hfirst
        | false =>
            rw [findSome?_eq_bind_find?, find?_sentSteps hfind hfirst]
            rfl

end Outcome

namespace Registry

/-- For every registry of a configuration and every composite operation that is transformed: its
verdict is the one of the first step that alone is rejected among those that leave an operation to
send.  This is the verdict of the first rejected step exactly when that step leaves an operation to
send, or the steps that do give the same verdict. -/
theorem verdict?_transformOperation_composite {config : Config} {registry : Registry}
    (hregistry : config.registry = .ok registry) {operation : Value}
    (hname : Operation.name operation = .ok Operation.composite) {c c' : Context} {o : Outcome}
    (hrun : TransformM.run (registry.transformOperation operation) c = (.ok o, c')) :
    exists items steps, Operation.steps operation = .ok items ∧
      List.Forall₂ (registry.Makes c) items steps ∧
      (forall result result', o.verdict? result =
        (Outcome.sentSteps steps).findSome? fun step => step.verdict? result') ∧
      ((forall result result', o.verdict? result =
          steps.findSome? fun step => step.verdict? result') ↔
        forall result first, steps.find? (fun step => (step.verdict? result).isSome) = some first ->
          first.isDiscarded = true ->
          ((Outcome.sentSteps steps).findSome? fun step => step.verdict? result) =
            first.verdict? result) := by
  have hr := Config.isBuiltIn_registry hregistry
  rcases makes_of_composite hr hname hrun with ⟨items, steps, hitems, hmakes, hcomposite⟩
  have hverdict := Outcome.verdict?_composite (forall_isFixed_of_makes hr hmakes) hcomposite
  refine ⟨items, steps, hitems, hmakes, hverdict, ?_⟩
  constructor
  · intro hfirst result
    rw [← Outcome.findSome?_sentSteps_eq_iff, ← hverdict result result]
    exact hfirst result result
  · intro hcondition result result'
    rw [hverdict result result']
    exact (Outcome.findSome?_sentSteps_eq_iff _ steps).mpr (hcondition result')

end Registry

open MailChain in
theorem Registry.verdict?_composite_writeTls_flush :
    Operation.name (compositeOf [writeTls, flush]) = .ok Operation.composite ∧
    exists steps, List.Forall₂ (registry.Makes context) [writeTls, flush] steps ∧
      forall result result', (outcomeOf (compositeOf [writeTls, flush])).verdict? result =
        (Outcome.sentSteps steps).findSome? fun step => step.verdict? result' := by
  have hname : Operation.name (compositeOf [writeTls, flush]) = .ok Operation.composite := by
    rfl
  have hrun : TransformM.run (registry.transformOperation (compositeOf [writeTls, flush])) context =
      (.ok (outcomeOf (compositeOf [writeTls, flush])), context) := by
    rfl
  rcases Registry.verdict?_transformOperation_composite registry_config hname hrun with
    ⟨items, steps, hitems, hmakes, hverdict, _⟩
  cases hitems
  exact ⟨hname, steps, hmakes, hverdict⟩

open MailChain in
/-- The only step is rejected by the first hop and discarded by the second one, and the composite
operation is not rejected. -/
theorem Registry.not_verdict?_composite_writeTls : config.registry = .ok registry ∧
    Operation.name (compositeOf [writeTls]) = .ok Operation.composite ∧
    Operation.steps (compositeOf [writeTls]) = .ok [writeTls] ∧
    registry.Makes context (compositeOf [writeTls]) (outcomeOf (compositeOf [writeTls])) ∧
    registry.Makes context writeTls (outcomeOf writeTls) ∧
    (outcomeOf writeTls).isDiscarded = true ∧
    (outcomeOf writeTls).verdict? .undefined = some (some
      ("Operation 'write-attribute' at '/subsystem=mail' was rejected by host 'legacy-host' "
        ++ "(model version 1.0.0): Attributes [tls] are not understood in the target model "
        ++ "version and must be undefined")) ∧
    ¬ (forall result result', (outcomeOf (compositeOf [writeTls])).verdict? result =
      [outcomeOf writeTls].findSome? fun step => step.verdict? result') := by
  have hstep : ((outcomeOf writeTls).verdict? .undefined).isSome = true := by
    rfl
  have hcomposite : (outcomeOf (compositeOf [writeTls])).verdict? .undefined = none := by
    rfl
  refine ⟨registry_config, rfl, rfl, rfl, rfl, rfl, by decide +kernel, ?_⟩
  intro hall
  have hsame := hall .undefined .undefined
  rw [hcomposite] at hsame
  cases hverdict : (outcomeOf writeTls).verdict? .undefined with
  | none => simp [hverdict] at hstep
  | some description => simp [hverdict] at hsame

end MixedDomain
