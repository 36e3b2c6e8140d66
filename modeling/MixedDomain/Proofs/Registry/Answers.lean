import MixedDomain.Proofs.Answering
import MixedDomain.Proofs.Registry.Addresses
import MixedDomain.Proofs.Registry.Composite

/-!
# Answers about transformed operations

## One description

What becomes of an operation in a built-in registry is fixed.  However often it is
asked, it rejects exactly if it has a description, and gives this description.

## Hops in a row

Hops that come in two parts are the first part and then the second one, applied to
what the first part sends.  The outcome sends what the second part sends, is rejected
as the first part says or else as the second one does, and hands results first to the
second part and then to the first one.
-/

namespace MixedDomain

open TransformM

theorem TransformM.run_bind_congr {result next : Type} {m : TransformM result}
    {k k' : result -> TransformM next} {c : Context}
    (h : forall x c', run m c = (.ok x, c') -> run (k x) c' = run (k' x) c') :
    run (m >>= k) c = run (m >>= k') c := by
  rcases hm : run m c with ⟨e | x, c'⟩
  · rw [run_bind_of_error hm, run_bind_of_error hm]
  · rw [run_bind_of_ok hm, run_bind_of_ok hm]
    exact h x c' hm

theorem TransformM.run_bind_congr_left {result next : Type} {m m' : TransformM result} {c : Context}
    (h : run m c = run m' c) (k : result -> TransformM next) :
    run (m >>= k) c = run (m' >>= k) c := by
  rcases hm : run m c with ⟨e | x, c'⟩
  · rw [run_bind_of_error hm, run_bind_of_error (h.symm.trans hm)]
  · rw [run_bind_of_ok hm, run_bind_of_ok (h.symm.trans hm)]

namespace Registry

/-!
# One description
-/

/-- For every registry of a configuration and every operation that is transformed: there is a
description or none, and whatever is asked of the outcome and of its clones is answered by it. -/
theorem answersBy_transformOperation {config : Config} {registry : Registry}
    (hregistry : config.registry = .ok registry) {operation : Value} {c c' : Context} {o : Outcome}
    (hrun : run (registry.transformOperation operation) c = (.ok o, c')) :
    exists description? : Option String, o.AnswersBy description? := by
  have hr := Config.isBuiltIn_registry hregistry
  have hfixed := (reportsWith_transformOperation hr operation).2 c o c' hrun
  exact ⟨o.description?, Outcome.answersBy_of_isFixed hfixed⟩

end Registry

open MailChain in
theorem Registry.answersBy_writeTls : config.registry = .ok registry ∧
    run (registry.transformOperation writeTls) context = (.ok (outcomeOf writeTls), context) ∧
    exists description, (outcomeOf writeTls).AnswersBy (some description) ∧
      Call.answers? [outcomeOf writeTls]
          [.describe 0, .clone 0, .reject 1 .undefined, .clone 1, .describe 2, .reject 0 writeTls] =
        some [.description (some description), .cloned, .verdict true, .cloned,
          .description (some description), .verdict true] := by
  have hrun : run (registry.transformOperation writeTls) context =
      (.ok (outcomeOf writeTls), context) := by
    rfl
  have hsome : (outcomeOf writeTls).description?.isSome = true := by
    rfl
  rcases Registry.answersBy_transformOperation registry_config hrun with ⟨description?, hanswers⟩
  have hread : some [Answer.description (outcomeOf writeTls).description?] =
      some [Answer.description description?] :=
    hanswers [.describe 0] (by simp [Call.InRange, Call.number])
  simp only [Option.some.injEq, List.cons.injEq, Answer.description.injEq, and_true] at hread
  rcases Option.isSome_iff_exists.mp hsome with ⟨description, hdescription⟩
  rw [← hread, hdescription] at hanswers
  refine ⟨registry_config, hrun, description, hanswers, ?_⟩
  exact hanswers _ (by simp [Call.InRange, Call.number, Call.countAfter])

/-!
# Outcomes in a row
-/

namespace Outcome

/-- The outcome of several transformations in a row; a single one is left as it is. -/
def inRow : List Outcome -> Outcome
  | [only] => only
  | outcomes => chained outcomes

theorem inRow_cases (outcomes : List Outcome) :
    (exists only, outcomes = [only] ∧ inRow outcomes = only) ∨
      inRow outcomes = chained outcomes := by
  rcases outcomes with - | ⟨only, - | ⟨second, rest⟩⟩
  · exact Or.inr rfl
  · exact Or.inl ⟨only, rfl, rfl⟩
  · exact Or.inr rfl

theorem operation?_inRow (outcomes : List Outcome) :
    (inRow outcomes).operation? = outcomes.getLast?.bind Outcome.operation? := by
  rcases inRow_cases outcomes with ⟨only, rfl, honly⟩ | hchained
  · rfl
  · rw [hchained]
    rfl

theorem onResult_inRow (outcomes : List Outcome) (result : Value) :
    (inRow outcomes).onResult result = onResultBackwards outcomes result := by
  rcases inRow_cases outcomes with ⟨only, rfl, honly⟩ | hchained
  · rfl
  · rw [hchained, chained_onResult]

theorem isFixed_inRow {outcomes : List Outcome} (h : ∀ o ∈ outcomes, o.IsFixed) :
    (inRow outcomes).IsFixed := by
  rcases inRow_cases outcomes with ⟨only, rfl, honly⟩ | hchained
  · exact h only List.mem_cons_self
  · rw [hchained]
    exact isFixed_chained h

theorem description?_inRow (outcomes : List Outcome) :
    (inRow outcomes).description? = outcomes.findSome? Outcome.description? := by
  rcases inRow_cases outcomes with ⟨only, rfl, honly⟩ | hchained
  · rw [List.findSome?_singleton]
    rfl
  · rw [hchained, description?, chained, Rejection.description?,
      Rejection.firstDescription?_eq_findSome?, List.findSome?_map]
    rfl

/-- Whether an outcome is that of a first transformation and then of a second one. -/
structure Joins (first second o : Outcome) : Prop where
  operation : o.operation? = second.operation?
  answers : exists description? description'? : Option String, first.AnswersBy description? ∧
    second.AnswersBy description'? ∧ o.AnswersBy (description?.or description'?)
  onResult : forall result, o.onResult result = first.onResult (second.onResult result)

theorem joins_inRow {outcomes others : List Outcome} (hfirst : ∀ o ∈ outcomes, o.IsFixed)
    (hsecond : ∀ o ∈ others, o.IsFixed) (hothers : others ≠ []) :
    (inRow outcomes).Joins (inRow others) (inRow (outcomes ++ others)) := by
  have hall : ∀ o ∈ outcomes ++ others, o.IsFixed := List.forall_mem_append.mpr ⟨hfirst, hsecond⟩
  constructor
  · rw [operation?_inRow, operation?_inRow, List.getLast?_append_of_ne_nil _ hothers]
  · refine ⟨_, _, answersBy_of_isFixed (isFixed_inRow hfirst),
      answersBy_of_isFixed (isFixed_inRow hsecond), ?_⟩
    have hdescription : (inRow outcomes).description?.or (inRow others).description? =
        (inRow (outcomes ++ others)).description? := by
      rw [description?_inRow, description?_inRow, description?_inRow, List.findSome?_append]
    rw [hdescription]
    exact answersBy_of_isFixed (isFixed_inRow hall)
  · intro result
    rw [onResult_inRow, onResult_inRow, onResult_inRow, onResultBackwards_append]

end Outcome

/-!
# Hops in a row
-/

namespace Registry

variable {first second hops : List Hop} {a : Address} {operation : Value} {c c' : Context}

theorem applyHops_eq (hops : List Hop) (a : Address) (operation : Value) :
    applyHops hops a operation = Outcome.inRow <$> runHops hops a operation := by
  rw [applyHops, map_eq_pure_bind]
  congr
  funext outcomes
  rcases outcomes with - | ⟨only, - | ⟨second, rest⟩⟩
  · rfl
  · rfl
  · rfl

def continueHops (hops : List Hop) (outcomes : List Outcome) : TransformM (List Outcome) :=
  match outcomes.getLast?.bind Outcome.operation? with
  | none => return outcomes
  | some next => do
      let target ← ofValue (Operation.address next)
      let others ← runHops hops target next
      return outcomes ++ others

theorem continueHops_cons (hops : List Hop) (o : Outcome) {outcomes : List Outcome}
    (h : outcomes ≠ []) :
    continueHops hops (o :: outcomes) =
      continueHops hops outcomes >>= fun others => pure (o :: others) := by
  rw [continueHops, continueHops, List.getLast?_cons_of_ne_nil h]
  cases outcomes.getLast?.bind Outcome.operation? with
  | none => rfl
  | some next => simp only [bind_assoc, pure_bind, List.cons_append]

theorem continueHops_singleton (hops : List Hop) (o : Outcome) :
    continueHops hops [o] =
      match o.operation? with
      | none => pure [o]
      | some next => do
          let target ← ofValue (Operation.address next)
          let others ← runHops hops target next
          return o :: others := by
  rfl

theorem run_runHops_append (hfirst : first ≠ []) (second : List Hop) (a : Address)
    (operation : Value) (c : Context) :
    run (runHops (first ++ second) a operation) c =
      run (runHops first a operation >>= continueHops second) c := by
  induction first generalizing a operation c with
  | nil =>
      exact absurd rfl hfirst
  | cons hop rest ih =>
      rw [List.cons_append, runHops, runHops, bind_assoc]
      apply run_bind_congr
      intro outcome mid _
      cases hoperation : outcome.operation? with
      | none =>
          rw [pure_bind, continueHops_singleton, hoperation]
      | some next =>
          dsimp only
          rw [bind_assoc]
          by_cases hrest : rest = []
          · subst hrest
            cases htarget : Operation.address next with
            | error e => rfl
            | ok target =>
                show run (runHops second target next >>= fun others => pure (outcome :: others))
                  mid = run (continueHops second [outcome]) mid
                rw [continueHops_singleton, hoperation]
                dsimp only
                rw [htarget]
                rfl
          · apply run_bind_congr
            intro target mid' _
            rw [run_bind_congr_left (ih hrest target next mid'), bind_assoc, bind_assoc]
            apply run_bind_congr
            intro outcomes _ hran
            rw [pure_bind, continueHops_cons second outcome (ne_nil_of_runHops hrest hran)]

theorem exists_address_of_runHops {outcomes : List Outcome}
    (hrun : run (runHops hops a operation) c = (.ok outcomes, c')) :
    ∀ next ∈ outcomes.getLast?.bind Outcome.operation?,
      exists target, Operation.address next = .ok target := by
  induction hops generalizing a operation c outcomes with
  | nil =>
      cases hrun
      exact nofun
  | cons hop rest ih =>
      rcases run_bind_eq_ok hrun with ⟨outcome, mid, _, hafter⟩
      split at hafter
      · rename_i hnone
        cases hafter
        simp [hnone]
      · rename_i sent hsent
        rcases run_bind_eq_ok hafter with ⟨target, _, htarget, hothers⟩
        rcases run_bind_eq_ok hothers with ⟨others, _, hrest, hend⟩
        cases hend
        by_cases hempty : others = []
        · subst hempty
          intro next hnext
          have hsame : outcome.operation? = some next := hnext
          rw [hsent] at hsame
          cases hsame
          exact ⟨target, (run_ofValue_eq_ok htarget).1⟩
        · rw [List.getLast?_cons_of_ne_nil hempty]
          exact ih hrest

/-- All hops end as the first ones, or else as the others do with what the first ones send. -/
theorem run_applyHops_append_cases (hbfirst : ∀ hop ∈ first, hop.IsBuiltIn)
    (hbsecond : ∀ hop ∈ second, hop.IsBuiltIn) (hfirst : first ≠ []) (hsecond : second ≠ [])
    (a : Address) (operation : Value) (c : Context) :
    (exists e c₁, run (applyHops first a operation) c = (.error e, c₁) ∧
      run (applyHops (first ++ second) a operation) c = (.error e, c₁)) ∨
    exists o c₁, run (applyHops first a operation) c = (.ok o, c₁) ∧
      ((o.operation? = none ∧ run (applyHops (first ++ second) a operation) c = (.ok o, c₁)) ∨
      exists next target, o.operation? = some next ∧ Operation.address next = .ok target ∧
        ((exists e c₂, run (applyHops second target next) c₁ = (.error e, c₂) ∧
          run (applyHops (first ++ second) a operation) c = (.error e, c₂)) ∨
        exists o' whole c₂, run (applyHops second target next) c₁ = (.ok o', c₂) ∧
          run (applyHops (first ++ second) a operation) c = (.ok whole, c₂) ∧
          o.Joins o' whole)) := by
  have hwhole : run (applyHops (first ++ second) a operation) c =
      run (runHops first a operation >>= fun outcomes =>
        continueHops second outcomes >>= fun all => pure (Outcome.inRow all)) c := by
    rw [applyHops_eq, map_eq_pure_bind,
      run_bind_congr_left (run_runHops_append hfirst second a operation c), bind_assoc]
  rw [hwhole, applyHops_eq, map_eq_pure_bind]
  rcases hran : run (runHops first a operation) c with ⟨e | outcomes, c₁⟩
  · exact Or.inl ⟨e, c₁, run_bind_of_error hran, run_bind_of_error hran⟩
  · refine Or.inr ⟨Outcome.inRow outcomes, c₁, run_bind_of_ok hran, ?_⟩
    rw [run_bind_of_ok hran, Outcome.operation?_inRow, continueHops]
    cases hlast : outcomes.getLast?.bind Outcome.operation? with
    | none => exact Or.inl ⟨rfl, rfl⟩
    | some next =>
        rcases exists_address_of_runHops hran next hlast with ⟨target, htarget⟩
        refine Or.inr ⟨next, target, rfl, htarget, ?_⟩
        have hread : run (ofValue (Operation.address next)) c₁ = (.ok target, c₁) := by
          rw [htarget]
          rfl
        simp only [bind_assoc, pure_bind]
        rw [run_bind_of_ok hread, applyHops_eq, map_eq_pure_bind]
        rcases hsent : run (runHops second target next) c₁ with ⟨e | others, c₂⟩
        · exact Or.inl ⟨e, c₂, run_bind_of_error hsent, run_bind_of_error hsent⟩
        · refine Or.inr ⟨_, _, c₂, run_bind_of_ok hsent, run_bind_of_ok hsent, ?_⟩
          exact Outcome.joins_inRow ((reportsWith_runHops hbfirst a operation).2 c _ _ hran)
            ((reportsWith_runHops hbsecond target next).2 c₁ _ _ hsent)
            (ne_nil_of_runHops hsecond hsent)

/-- For hops that configurations register, in two parts that are not empty: together they fail
exactly when the first part fails, or when the second one fails with what the first one sends, and
the error is the same.  If the first part sends nothing, its outcome is the one of all.  Otherwise
the outcomes of both parts are joined. -/
theorem applyHops_append (hfirst : first ≠ []) (hsecond : second ≠ [])
    (hhops : ∀ hop ∈ first ++ second, exists (config : Config) (registry : Registry),
      config.registry = .ok registry ∧ registry.Holds hop)
    (a : Address) (operation : Value) (c : Context) :
    (forall e, (run (applyHops (first ++ second) a operation) c).1 = .error e ↔
      (run (applyHops first a operation) c).1 = .error e ∨
      exists o c₁ next target, run (applyHops first a operation) c = (.ok o, c₁) ∧
        o.operation? = some next ∧ Operation.address next = .ok target ∧
        (run (applyHops second target next) c₁).1 = .error e) ∧
    (forall o c₁, run (applyHops first a operation) c = (.ok o, c₁) ->
      (o.operation? = none -> run (applyHops (first ++ second) a operation) c = (.ok o, c₁)) ∧
      ∀ next ∈ o.operation?, exists target, Operation.address next = .ok target ∧
        (run (applyHops second target next) c₁).1 = (run (applyHops second target next) c).1 ∧
        forall o' c₂, run (applyHops second target next) c₁ = (.ok o', c₂) ->
          exists whole, run (applyHops (first ++ second) a operation) c = (.ok whole, c₂) ∧
            o.Joins o' whole) := by
  have hb : ∀ hop ∈ first ++ second, hop.IsBuiltIn := by
    intro hop hmem
    rcases hhops hop hmem with ⟨config, registry, hregistry, hholds⟩
    exact (Config.isBuiltIn_registry hregistry).of_holds hholds
  rw [List.forall_mem_append] at hb
  have hafresh : forall next target {o c₁}, run (applyHops first a operation) c = (.ok o, c₁) ->
      (run (applyHops second target next) c₁).1 = (run (applyHops second target next) c).1 := by
    intro next target o c₁ hran
    have hkept := (reportsWith_applyHops hb.1 a operation).1.fresh_eq hran
    exact (reportsWith_applyHops hb.2 target next).1.ending_eq hkept
  rcases run_applyHops_append_cases hb.1 hb.2 hfirst hsecond a operation c with
    ⟨e, c₁, hran, hwhole⟩ | ⟨o, c₁, hran, ⟨hnone, hwhole⟩ | ⟨next, target, hnext, htarget, hafter⟩⟩
  · rw [hwhole, hran]
    exact ⟨by simp, nofun⟩
  · rw [hwhole]
    constructor
    · simp [hran, hnone]
    · intro o₁ c' hsame
      cases hran.symm.trans hsame
      refine ⟨fun _ => rfl, ?_⟩
      rw [hnone]
      exact nofun
  · constructor
    · rcases hafter with ⟨e, c₂, hfailed, hwhole⟩ | ⟨o', whole, c₂, hsent, hwhole, _⟩
      · simp [hwhole, hran, hnext, htarget, hfailed]
      · simp [hwhole, hran, hnext, htarget, hsent]
    · intro o₁ c' hsame
      cases hran.symm.trans hsame
      rw [hnext]
      refine ⟨nofun, ?_⟩
      rintro _ ⟨⟩
      refine ⟨target, htarget, hafresh next target hran, ?_⟩
      intro o' c₂ hran₂
      rcases hafter with ⟨e, _, hfailed, _⟩ | ⟨o', whole, c₂, hsent, hwhole, hjoins⟩
      · cases hfailed.symm.trans hran₂
      · cases hsent.symm.trans hran₂
        exact ⟨whole, hwhole, hjoins⟩

end Registry

/-- The hops to the oldest version: the first one rejects what the second one discards. -/
def MailChain.hops : List Hop :=
  (registry.hopsTo? "mail" ⟨1, 0, 0⟩).getD []

open MailChain in
theorem Registry.applyHops_append_writeTls : hops.take 1 ≠ [] ∧ hops.drop 1 ≠ [] ∧
    (∀ hop ∈ hops.take 1 ++ hops.drop 1, exists (config : Config) (registry : Registry),
      config.registry = .ok registry ∧ registry.Holds hop) ∧
    exists o o' whole,
      run (applyHops (hops.take 1) address writeTls) context = (.ok o, context) ∧
      o.operation? = some writeTls ∧
      run (applyHops (hops.drop 1) address writeTls) context = (.ok o', context) ∧
      o'.operation? = none ∧
      run (applyHops (hops.take 1 ++ hops.drop 1) address writeTls) context =
        (.ok whole, context) ∧
      o.Joins o' whole := by
  have hfirst : hops.take 1 ≠ [] := by
    exact List.cons_ne_nil _ _
  have hsecond : hops.drop 1 ≠ [] := by
    exact List.cons_ne_nil _ _
  have hhops : ∀ hop ∈ hops.take 1 ++ hops.drop 1, exists (config : Config) (registry : Registry),
      config.registry = .ok registry ∧ registry.Holds hop := by
    rw [List.take_append_drop]
    exact fun hop hmem => ⟨config, registry, registry_config, "mail", ⟨1, 0, 0⟩, hops, rfl, hmem⟩
  rcases Registry.applyHops_append hfirst hsecond hhops address writeTls context with ⟨_, hparts⟩
  rcases (hparts _ _ rfl).2 writeTls rfl with ⟨target, htarget, _, hjoined⟩
  cases htarget
  rcases hjoined _ _ rfl with ⟨whole, hwhole, hjoins⟩
  exact ⟨hfirst, hsecond, hhops, _, _, whole, rfl, rfl, rfl, rfl, hwhole, hjoins⟩

end MixedDomain
