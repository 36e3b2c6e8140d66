import MixedDomain.Proofs.Config.Suiting
import MixedDomain.Proofs.Hop.Writing
import MixedDomain.Proofs.Registry.Addresses
import MixedDomain.Proofs.Registry.Composite

/-!
# Operations that are always transformed

## Well-formed operations

An operation is well formed when it is an object with a name and an address, when it
names an attribute if it is about one, and when its steps are well formed if it is
composite.

## Registries

Where every version is reached in a single hop, and no attribute is called as the
address of operations, well-formed operations are always transformed: what a
transformer needs of an operation is there, and what is sent has an address again.
-/

namespace MixedDomain

open TransformM

/-!
# Well-formed operations
-/

namespace Operation

/-- Whether an operation is an object that has a name and an address, and names the attribute that
it is about. -/
structure IsRequest (operation : Value) : Prop where
  isObject : operation.IsObject
  named : operation.hasDefined nameKey
  addressed : exists a, address operation = .ok a
  about : name operation = .ok writeAttribute ∨ name operation = .ok undefineAttribute ->
    operation.hasDefined attributeKey

theorem isRequest_of_name {operation : Value} {called : String} (hobject : operation.IsObject)
    (hnamed : operation.hasDefined nameKey) (ha : exists a, address operation = .ok a)
    (hname : name operation = .ok called)
    (hother : called ≠ writeAttribute ∧ called ≠ undefineAttribute) : IsRequest operation := by
  refine ⟨hobject, hnamed, ha, ?_⟩
  rintro (hwrite | hundefine)
  · exact absurd (Except.ok.inj (hname.symm.trans hwrite)) hother.1
  · exact absurd (Except.ok.inj (hname.symm.trans hundefine)) hother.2

/-- Whether an operation and all its steps are requests. -/
inductive WellFormed : Value -> Prop where
  | simple {operation : Value} :
      IsRequest operation -> name operation ≠ .ok composite -> WellFormed operation
  | composite {operation : Value} {items : List Value} :
      IsRequest operation -> name operation = .ok composite -> steps operation = .ok items ->
      (∀ step ∈ items, WellFormed step) -> WellFormed operation

end Operation

theorem Value.exists_text {v : Value} {key : String} (h : v.hasDefined key) :
    exists text, v.require key >>= Value.asText = .ok text := by
  unfold hasDefined getOrUndefined at h
  unfold require
  cases hget : v.get? key with
  | none =>
      rw [hget] at h
      cases h
  | some w =>
      rw [hget, Option.getD_some] at h
      simp only [h, if_pos]
      cases w with
      | undefined => cases h
      | _ => exact ⟨_, rfl⟩

theorem Operation.IsRequest.exists_isCalled {operation : Value} (h : IsRequest operation) :
    exists name, IsCalled name operation := by
  rcases Value.exists_text h.named with ⟨name, hname⟩
  refine ⟨name, h.isObject, hname, ?_⟩
  intro habout
  have hattribute : operation.hasDefined attributeKey := by
    apply h.about
    rcases habout with rfl | rfl
    · exact Or.inl hname
    · exact Or.inr hname
  exact Value.exists_text hattribute

/-!
# Hops
-/

namespace Hop

variable {h : Hop} {a target : Address} {operation : Value} {name : String}

theorem SuitsOperations.sparesAddress (hsuits : h.SuitsOperations) : h.SparesAddress :=
  fun b d hd entry hentry => (hsuits b d hd entry hentry).sparesAddress

theorem exists_redirect {o : Outcome} (ho : o.SendsObject) :
    exists o', redirect a target o = .ok o' ∧ o'.SendsObject := by
  unfold redirect
  split
  · exact ⟨o, rfl, ho⟩
  · unfold Outcome.mapOperation
    cases hoperation : o.operation? with
    | none => exact ⟨o, rfl, ho⟩
    | some sent =>
        rcases Value.takesEdits_isObject.set Operation.addressKey target.toValue
          (ho sent hoperation) with ⟨redirected, hset, hobject⟩
        dsimp only
        rw [hset]
        exact ⟨_, rfl, Outcome.sendsObject_of_operation? rfl hobject⟩

theorem exists_transformerAt (hname : Operation.name operation = .ok name)
    (along : List (Nat × ResourceDescription)) :
    exists transformer, transformerAt a operation along = .ok transformer := by
  unfold transformerAt
  rw [hname]
  split
  · split
    · exact ⟨_, rfl⟩
    · exact ⟨_, rfl⟩
  · exact ⟨_, rfl⟩

theorem succeeds_transformOperation (hb : h.IsBuiltIn) (hsuits : h.SuitsOperations)
    (hcalled : Operation.IsCalled name operation) :
    Succeeds Outcome.SendsObject (h.transformOperation a operation) := by
  apply succeeds_get_bind
  intro c
  dsimp only
  cases withheldAlong a c (h.descriptions.along a) with
  | silent => exact succeeds_pure Outcome.sendsObject_discarded
  | rejectAndWarn => exact Transformer.succeeds_rejectOperation none hcalled
  | never =>
      rcases exists_transformerAt (a := a) hcalled.name_eq (h.descriptions.along a) with
        ⟨transformer, htransformer⟩
      have hfits : transformer.Suits name := by
        rcases transformerAt_eq_ok htransformer with rfl | ⟨b, d, found, hd, hfound, hmem⟩
        · exact .pass
        · have hsame : found = name := Except.ok.inj (hfound.symm.trans hcalled.name_eq)
          exact hsame ▸ hsuits b d hd _ hmem
      dsimp only
      rw [htransformer]
      apply succeeds_bind (hfits.succeeds_run (isBuiltIn_transformerAt hb htransformer) hcalled)
      intro outcome houtcome
      exact succeeds_ofValue (exists_redirect houtcome)

end Hop

/-!
# Registries
-/

namespace Registry

variable {r : Registry} {hop : Hop} {a : Address} {operation : Value} {name : String}

def HasSingleHops (r : Registry) : Prop :=
  forall subsystem version hops, r.hopsTo? subsystem version = some hops -> exists hop, hops = [hop]

theorem hasSingleHops_registry {config : Config}
    (hchains : ∀ rules ∈ config.subsystems, rules.chain? = none)
    (hregistry : config.registry = .ok r) : r.HasSingleHops := by
  have hall : r.Everywhere fun hops => exists hop, hops = [hop] := by
    refine Except.foldlM_keeps ?_ everywhere_empty (Config.registry_eq_ok hregistry)
    intro rules hmem before after hbefore hstep
    rcases Except.bind_eq_ok hstep with ⟨mid, hversions, hafter⟩
    rw [hchains rules hmem] at hafter
    cases hafter
    refine Except.foldlM_keeps ?_ hbefore hversions
    intro version _ found found' hfound hregister
    rcases Except.map_eq_ok hregister with ⟨resource, _, rfl⟩
    exact hfound.registerHops rules.name version.version ⟨_, rfl⟩
  exact fun _ _ _ hhops => hall.of_hopsTo? hhops

theorem succeeds_runHops_singleton (hb : hop.IsBuiltIn) (hsuits : hop.SuitsOperations)
    (ha : Operation.address operation = .ok a) (hcalled : Operation.IsCalled name operation) :
    Succeeds (fun outcomes => exists o, outcomes = [o] ∧ o.SendsObject)
      (runHops [hop] a operation) := by
  have haddress : forall c o c', run (hop.transformOperation a operation) c = (.ok o, c') ->
      ∀ sent ∈ o.operation?, exists target, Operation.address sent = .ok target := by
    intro c o c' hrun sent hsent
    exact ⟨_, Hop.address_of_transformOperation hb hsuits.sparesAddress ha hrun sent hsent⟩
  have hhop := (Hop.succeeds_transformOperation (a := a) hb hsuits hcalled).of_run haddress
  apply succeeds_bind hhop
  rintro outcome ⟨hobject, hread⟩
  cases hoperation : outcome.operation? with
  | none => exact succeeds_pure ⟨outcome, rfl, hobject⟩
  | some next =>
      rcases hread next hoperation with ⟨target, htarget⟩
      apply succeeds_bind (succeeds_ofValue_of_eq htarget)
      intro _ _
      exact succeeds_pure ⟨outcome, rfl, hobject⟩

theorem succeeds_applyHops_singleton (hb : hop.IsBuiltIn) (hsuits : hop.SuitsOperations)
    (ha : Operation.address operation = .ok a) (hcalled : Operation.IsCalled name operation) :
    Succeeds Outcome.SendsObject (applyHops [hop] a operation) := by
  apply succeeds_bind (succeeds_runHops_singleton hb hsuits ha hcalled)
  rintro _ ⟨o, rfl, ho⟩
  exact succeeds_pure ho

theorem succeeds_transformSimple (hb : r.IsBuiltIn)
    (hsuits : r.Everywhere fun hops => ∀ hop ∈ hops, hop.SuitsOperations) (hr : r.HasSingleHops)
    (ha : exists a, Operation.address operation = .ok a)
    (hcalled : Operation.IsCalled name operation) :
    Succeeds Outcome.SendsObject (r.transformSimple name operation) := by
  have hsend : Outcome.SendsObject (.send operation) :=
    Outcome.sendsObject_of_operation? rfl hcalled.isObject
  unfold transformSimple
  split
  · exact succeeds_pure hsend
  · rcases ha with ⟨a, ha⟩
    apply succeeds_bind (succeeds_ofValue_of_eq ha)
    rintro _ rfl
    apply succeeds_get_bind
    intro c
    cases hhops : r.hops? c.target _ with
    | none => exact succeeds_pure hsend
    | some hops =>
        rcases hopsTo?_of_hops? hhops with ⟨subsystem, version, hfound⟩
        rcases hr subsystem version hops hfound with ⟨hop, rfl⟩
        apply succeeds_movedTo
        exact succeeds_applyHops_singleton (hb.of_hops? hhops hop List.mem_cons_self)
          (hsuits.of_hopsTo? hfound hop List.mem_cons_self) ha hcalled

/-!
# Composite operations
-/

theorem succeeds_transformItems {items : List Value}
    (hitems : ∀ step ∈ items, Succeeds Outcome.SendsObject (r.transformOperation step)) :
    Succeeds (fun _ => True) (r.transformItems items) := by
  induction items with
  | nil =>
      exact succeeds_pure trivial
  | cons step rest ih =>
      apply succeeds_bind (hitems step List.mem_cons_self)
      intro outcome _
      apply succeeds_bind (ih fun other hother => hitems other (List.mem_cons_of_mem step hother))
      intro outcomes _
      exact succeeds_pure trivial

theorem exists_composite (h : operation.IsObject) (steps : List Outcome) :
    exists o, Outcome.composite operation steps = .ok o ∧ o.SendsObject := by
  unfold Outcome.composite
  dsimp only
  split
  · exact ⟨_, rfl, nofun⟩
  · rcases Value.takesEdits_isObject.set Operation.stepsKey
      (.list ((Outcome.sentSteps steps).filterMap Outcome.operation?)) h with ⟨sent, hset, hobject⟩
    rw [hset]
    exact ⟨_, rfl, Outcome.sendsObject_of_operation? rfl hobject⟩

theorem succeeds_transformOperation (hb : r.IsBuiltIn)
    (hsuits : r.Everywhere fun hops => ∀ hop ∈ hops, hop.SuitsOperations) (hr : r.HasSingleHops)
    (h : Operation.WellFormed operation) :
    Succeeds Outcome.SendsObject (r.transformOperation operation) := by
  induction h with
  | @simple operation hrequest hsimple =>
      rcases hrequest.exists_isCalled with ⟨name, hcalled⟩
      have hother : name ≠ Operation.composite := by
        rintro rfl
        exact hsimple hcalled.name_eq
      rw [transformOperation_eq]
      apply succeeds_bind (succeeds_ofValue_of_eq hcalled.name_eq)
      rintro _ rfl
      rw [if_neg hother]
      exact succeeds_transformSimple hb hsuits hr hrequest.addressed hcalled
  | @composite operation items hrequest hcomposite hsteps _ ih =>
      rw [transformOperation_eq]
      apply succeeds_bind (succeeds_ofValue_of_eq hcomposite)
      rintro _ rfl
      rw [if_pos rfl]
      apply succeeds_bind (succeeds_ofValue_of_eq hsteps)
      rintro _ rfl
      apply succeeds_bind (succeeds_transformItems ih)
      intro outcomes _
      exact succeeds_ofValue
        (exists_composite (Value.takesEdits_isObject.erase _ hrequest.isObject) outcomes)

/-- For every registry of a configuration in which every version is reached in a single hop and no
attribute is called as the address of operations: a well-formed operation, however its steps are
nested, is transformed in every context. -/
theorem transformOperation_ok {config : Config} {registry : Registry}
    (hregistry : config.registry = .ok registry) (hsingle : registry.HasSingleHops)
    (hspares : config.Spares [Operation.addressKey]) (h : Operation.WellFormed operation)
    (c : Context) :
    exists o c', run (registry.transformOperation operation) c = (.ok o, c') := by
  rcases succeeds_transformOperation (Config.isBuiltIn_registry hregistry)
    (Config.suitsOperations_registry hspares hregistry) hsingle h c with ⟨o, c', hrun, _⟩
  exact ⟨o, c', hrun⟩

end Registry

/-!
# Composite operations in one another

The inner one writes the attribute that the target has under another name, and makes it
undefined.
-/

namespace MailEncryption

def nested : Value :=
  MailChain.compositeOf [
    MailChain.compositeOf [
      Operation.writing mail "tls" (.boolean false), Operation.undefining mail "tls"],
    Operation.create "restart" mail]

theorem spares_config : config.Spares [Operation.addressKey] := by
  intro rules hrules
  cases List.mem_singleton.mp hrules
  constructor
  · intro rule hrule
    cases List.mem_singleton.mp hrule
    constructor
    · decide
    · decide
  · exact nofun

theorem wellFormed_compositeOf {items : List Value}
    (h : ∀ step ∈ items, Operation.WellFormed step) :
    Operation.WellFormed (MailChain.compositeOf items) := by
  refine .composite (Operation.isRequest_of_name ⟨_, rfl⟩ rfl ⟨_, rfl⟩ rfl ?_) rfl rfl h
  decide

theorem wellFormed_nested : Operation.WellFormed nested := by
  apply wellFormed_compositeOf
  simp only [List.forall_mem_cons]
  refine ⟨wellFormed_compositeOf ?_, ?_, nofun⟩
  · simp only [List.forall_mem_cons]
    refine ⟨?_, ?_, nofun⟩
    · exact .simple ⟨⟨_, rfl⟩, rfl, ⟨mail, rfl⟩, fun _ => rfl⟩ nofun
    · exact .simple ⟨⟨_, rfl⟩, rfl, ⟨mail, rfl⟩, fun _ => rfl⟩ nofun
  · refine .simple (Operation.isRequest_of_name ⟨_, rfl⟩ rfl ⟨mail, rfl⟩ rfl ?_) nofun
    decide

end MailEncryption

open MailEncryption in
theorem Registry.transformOperation_nested_ok : config.registry = .ok registry ∧
    registry.HasSingleHops ∧ config.Spares [Operation.addressKey] ∧
    Operation.WellFormed nested ∧
    exists o c', run (registry.transformOperation nested) context = (.ok o, c') := by
  have hregistry : config.registry = .ok registry := by
    rfl
  have hsingle : registry.HasSingleHops := by
    apply Registry.hasSingleHops_registry _ hregistry
    exact List.forall_mem_singleton.mpr rfl
  exact ⟨hregistry, hsingle, spares_config, wellFormed_nested,
    Registry.transformOperation_ok hregistry hsingle spares_config wellFormed_nested context⟩

end MixedDomain
