import MixedDomain.Proofs.Hop.Withholding
import MixedDomain.Proofs.Registry.Operations
import MixedDomain.Proofs.Transformer.Address

/-!
# Addresses on the way through hops

## Operations

An operation is sent to the address on the target of the resource that it is about,
unless the resource is rejected: then it keeps its address.  The next hop takes the
address that it reads in the operation.

## Resources

A resource always moves on to its address on the target.  Operations and resources
have the same addresses on their way exactly when no hop that rejects at an address
redirects it.
-/

namespace MixedDomain

open TransformM

namespace Hop

variable {h : Hop} {a : Address} {c c' : Context} {operation : Value} {o : Outcome}

def SparesAddress (h : Hop) : Prop :=
  forall b d, h.description? b = some d -> ∀ entry ∈ d.operations, entry.2.SparesAddress

theorem sparesAddress_ofTree {tree : DescriptionTree}
    (hall : ∀ node ∈ tree.flatten Address.root,
      ∀ entry ∈ node.2.operations, entry.2.SparesAddress) : (Hop.ofTree tree).SparesAddress :=
  fun _ _ hd => of_description?_ofTree
    (p := fun d => ∀ entry ∈ d.operations, entry.2.SparesAddress) hall hd

def addressSent (h : Hop) (c : Context) (a : Address) : Address :=
  if h.withholding a c = .rejectAndWarn then a else h.targetOf a

theorem transformerAt_eq_ok {transformer : Transformer}
    (ht : transformerAt a operation (h.descriptions.along a) = .ok transformer) :
    transformer = .pass ∨ exists b d name, h.description? b = some d ∧
      Operation.name operation = .ok name ∧ (name, transformer) ∈ d.operations := by
  unfold transformerAt at ht
  split at ht
  · rename_i depth d hlast
    have hmem := List.mem_of_getLast? hlast
    rw [Trie.along_eq_filterMap_inits] at hmem
    rcases List.mem_filterMap.mp hmem with ⟨b, _, hfound⟩
    rcases Option.map_eq_some_iff.mp hfound with ⟨_, hd, heq⟩
    cases heq
    split at ht
    · rcases Except.map_eq_ok ht with ⟨name, hname, rfl⟩
      unfold ResourceDescription.transformerOf
      cases hget : Entries.get? name d.operations with
      | none => exact Or.inl rfl
      | some transformer => exact Or.inr ⟨b, d, name, hd, hname, Entries.mem_of_get? hget⟩
    · cases ht
      exact Or.inl rfl
  · cases ht
    exact Or.inl rfl

theorem sparesAddress_transformerAt (hspares : h.SparesAddress) {transformer : Transformer}
    (ht : transformerAt a operation (h.descriptions.along a) = .ok transformer) :
    transformer.SparesAddress := by
  rcases transformerAt_eq_ok ht with rfl | ⟨b, d, name, hd, _, hmem⟩
  · exact trivial
  · exact hspares b d hd _ hmem

theorem address_of_redirect {target : Address} {o o' : Outcome} (ho : o.KeepsAddress operation)
    (ha : Operation.address operation = .ok a) (h : redirect a target o = .ok o') :
    ∀ sent ∈ o'.operation?, Operation.address sent = .ok target := by
  intro sent hsent
  unfold redirect at h
  split at h
  · rename_i hsame
    cases h
    rw [Operation.address, Value.getOrUndefined, ho sent hsent, hsame]
    exact ha
  · unfold Outcome.mapOperation at h
    split at h
    · rename_i hnone
      cases h
      rw [hnone] at hsent
      cases hsent
    · rcases Except.map_eq_ok h with ⟨written, hset, rfl⟩
      cases hsent
      rw [Operation.address, Value.getOrUndefined, Value.get?_of_set_self hset]
      exact Address.ofValue_toValue target

/-- One hop sends an operation to the address on the target, or leaves it where it is. -/
theorem address_of_transformOperation (hb : h.IsBuiltIn) (hspares : h.SparesAddress)
    (ha : Operation.address operation = .ok a)
    (hrun : run (h.transformOperation a operation) c = (.ok o, c')) :
    ∀ sent ∈ o.operation?, Operation.address sent = .ok (h.addressSent c a) := by
  rw [transformOperation, run_get_bind] at hrun
  rw [addressSent, withholding]
  dsimp only at hrun
  cases hw : withheldAlong a c (h.descriptions.along a) with
  | silent =>
      rw [hw] at hrun
      cases hrun
      intro _ hsent
      cases hsent
  | rejectAndWarn =>
      rw [hw] at hrun
      rw [Transformer.operation?_of_rejectOperation hrun, if_pos rfl]
      rintro _ ⟨⟩
      exact ha
  | never =>
      rw [hw] at hrun
      rw [if_neg (by decide)]
      rcases run_bind_eq_ok hrun with ⟨transformer, mid, hfound, hafter⟩
      rcases run_ofValue_eq_ok hfound with ⟨ht, rfl⟩
      rcases run_bind_eq_ok hafter with ⟨outcome, _, hran, hredirect⟩
      have hkept := Transformer.keepsAddress_of_run (isBuiltIn_transformerAt hb ht)
        (sparesAddress_transformerAt hspares ht) hran
      exact address_of_redirect hkept ha (run_ofValue_eq_ok hredirect).1

end Hop

namespace Registry

variable {hops : List Hop} {a : Address} {c c' : Context} {operation : Value}

/-!
# Hops in a row
-/

def addressAfter (hops : List Hop) (a : Address) : Address :=
  hops.foldl (fun b hop => hop.targetOf b) a

def addressSentAfter (c : Context) (hops : List Hop) (a : Address) : Address :=
  hops.foldl (fun b hop => hop.addressSent c b) a

theorem ne_nil_of_runHops (hhops : hops ≠ []) {outcomes : List Outcome}
    (hrun : run (runHops hops a operation) c = (.ok outcomes, c')) : outcomes ≠ [] := by
  rcases List.exists_cons_of_ne_nil hhops with ⟨hop, rest, rfl⟩
  rcases run_bind_eq_ok hrun with ⟨outcome, mid, _, hafter⟩
  split at hafter
  · cases hafter
    exact List.cons_ne_nil _ _
  · rcases run_bind_eq_ok hafter with ⟨target, _, _, hothers⟩
    rcases run_bind_eq_ok hothers with ⟨others, _, _, hend⟩
    cases hend
    exact List.cons_ne_nil _ _

/-- Every hop takes the address that it reads, which is the one that the hop before sends to. -/
theorem address_of_runHops (hb : ∀ hop ∈ hops, hop.IsBuiltIn)
    (hspares : ∀ hop ∈ hops, hop.SparesAddress) (ha : Operation.address operation = .ok a)
    {outcomes : List Outcome} (c₀ : Context)
    (hrun : run (runHops hops a operation) c = (.ok outcomes, c')) :
    ∀ sent ∈ outcomes.getLast?.bind Outcome.operation?,
      Operation.address sent = .ok (addressSentAfter c₀ hops a) := by
  induction hops generalizing a operation c outcomes with
  | nil =>
      cases hrun
      exact nofun
  | cons hop rest ih =>
      have hbrest := fun other hother => hb other (List.mem_cons_of_mem hop hother)
      rcases run_bind_eq_ok hrun with ⟨outcome, mid, hfirst, hafter⟩
      have haddress := Hop.address_of_transformOperation (hb hop List.mem_cons_self)
        (hspares hop List.mem_cons_self) ha hfirst
      have hfresh : hop.addressSent c a = hop.addressSent c₀ a := by
        have hsame : hop.withholding a c = hop.withholding a c₀ :=
          Hop.withholding_fresh (hb hop List.mem_cons_self)
        rw [Hop.addressSent, Hop.addressSent, hsame]
      rw [hfresh] at haddress
      split at hafter
      · rename_i hnone
        cases hafter
        simp [hnone]
      · rename_i next hsome
        rcases run_bind_eq_ok hafter with ⟨target, _, htarget, hothers⟩
        rcases run_bind_eq_ok hothers with ⟨others, _, hrest, hend⟩
        cases hend
        rcases run_ofValue_eq_ok htarget with ⟨hread, rfl⟩
        rw [haddress next hsome] at hread
        cases hread
        cases rest with
        | nil =>
            cases hrest
            simpa [hsome, addressSentAfter] using haddress next hsome
        | cons second others' =>
            rw [List.getLast?_cons_of_ne_nil (ne_nil_of_runHops (List.cons_ne_nil _ _) hrest)]
            exact ih hbrest (fun other hother => hspares other (List.mem_cons_of_mem hop hother))
              (haddress next hsome) hrest

theorem operation?_of_applyHops {o : Outcome}
    (hrun : run (applyHops hops a operation) c = (.ok o, c')) :
    exists outcomes mid, run (runHops hops a operation) c = (.ok outcomes, mid) ∧
      o.operation? = outcomes.getLast?.bind Outcome.operation? := by
  rcases run_bind_eq_ok hrun with ⟨outcomes, mid, hhops, hend⟩
  refine ⟨outcomes, mid, hhops, ?_⟩
  split at hend
  · cases hend
    rfl
  · cases hend
    rfl

theorem transformByHops_append (first second : List Hop) (a : Address) (r : Resource) :
    transformByHops (first ++ second) a r = (do
      match ← transformByHops first a r with
      | none => return none
      | some transformed => transformByHops second (addressAfter first a) transformed) := by
  induction first generalizing a r with
  | nil =>
      rfl
  | cons hop rest ih =>
      simp only [List.cons_append, transformByHops, bind_assoc]
      congr
      funext transformed
      cases transformed with
      | none => rfl
      | some transformed => exact ih (hop.targetOf a) transformed

/-!
# Operations and resources alike
-/

def RejectsInPlace (c : Context) (hops : List Hop) (a : Address) : Prop :=
  forall n hop, hops[n]? = some hop ->
    hop.withholding (addressAfter (hops.take n) a) c = .rejectAndWarn ->
    hop.targetOf (addressAfter (hops.take n) a) = addressAfter (hops.take n) a

theorem rejectsInPlace_cons_iff (hop : Hop) (rest : List Hop) :
    RejectsInPlace c (hop :: rest) a ↔
      hop.addressSent c a = hop.targetOf a ∧ RejectsInPlace c rest (hop.targetOf a) := by
  have hfirst : hop.addressSent c a = hop.targetOf a ↔
      (hop.withholding a c = .rejectAndWarn -> hop.targetOf a = a) := by
    unfold Hop.addressSent
    split
    · rename_i hw
      exact ⟨fun heq _ => heq.symm, fun himp => (himp hw).symm⟩
    · rename_i hw
      exact ⟨fun _ himp => absurd himp hw, fun _ => rfl⟩
  rw [hfirst]
  constructor
  · intro hall
    constructor
    · exact hall 0 hop rfl
    · intro n other hother
      exact hall (n + 1) other hother
  · rintro ⟨hhere, hrest⟩ n other hother
    cases n with
    | zero =>
        cases hother
        exact hhere
    | succ n => exact hrest n other hother

theorem rejectsInPlace_iff : RejectsInPlace c hops a ↔
    forall n, addressSentAfter c (hops.take n) a = addressAfter (hops.take n) a := by
  induction hops generalizing a with
  | nil =>
      simp [RejectsInPlace, addressSentAfter, addressAfter]
  | cons hop rest ih =>
      rw [rejectsInPlace_cons_iff, ih]
      constructor
      · rintro ⟨hfirst, hrest⟩ n
        cases n with
        | zero => rfl
        | succ n =>
            show addressSentAfter c (rest.take n) (hop.addressSent c a) = _
            rw [hfirst]
            exact hrest n
      · intro hall
        have hfirst : hop.addressSent c a = hop.targetOf a := hall 1
        refine ⟨hfirst, fun n => ?_⟩
        have hnext : addressSentAfter c (rest.take n) (hop.addressSent c a) =
          addressAfter (rest.take n) (hop.targetOf a) := hall (n + 1)
        rwa [hfirst] at hnext

/-- For hops that configurations register, and in which no attribute is called as the address of
operations: whatever is sent has the address that hops send to one after the other.  On the way it
is always the address of the resource exactly when no hop redirects an address at which it rejects;
what is sent then has the address with which the resource goes on. -/
theorem address_of_applyHops
    (hhops : ∀ hop ∈ hops, hop.SparesAddress ∧ exists (config : Config) (registry : Registry),
      config.registry = .ok registry ∧ registry.Holds hop)
    (ha : Operation.address operation = .ok a) {o : Outcome}
    (hrun : run (applyHops hops a operation) c = (.ok o, c')) :
    (∀ sent ∈ o.operation?, Operation.address sent = .ok (addressSentAfter c hops a)) ∧
    (RejectsInPlace c hops a ↔
      forall n, addressSentAfter c (hops.take n) a = addressAfter (hops.take n) a) ∧
    (RejectsInPlace c hops a ->
      ∀ sent ∈ o.operation?, Operation.address sent = .ok (addressAfter hops a)) ∧
    (forall further r, transformByHops (hops ++ further) a r = (do
      match ← transformByHops hops a r with
      | none => return none
      | some transformed => transformByHops further (addressAfter hops a) transformed)) := by
  have hb : ∀ hop ∈ hops, hop.IsBuiltIn := by
    intro hop hmem
    rcases (hhops hop hmem).2 with ⟨config, registry, hregistry, hholds⟩
    exact (Config.isBuiltIn_registry hregistry).of_holds hholds
  rcases operation?_of_applyHops hrun with ⟨outcomes, mid, hran, hlast⟩
  have hsent := address_of_runHops hb (fun hop hmem => (hhops hop hmem).1) ha c hran
  rw [← hlast] at hsent
  refine ⟨hsent, rejectsInPlace_iff, ?_, fun further r => transformByHops_append hops further a r⟩
  intro hplace sent hmem
  have hall := rejectsInPlace_iff.mp hplace hops.length
  rw [List.take_length] at hall
  rw [← hall]
  exact hsent sent hmem

end Registry

namespace MailLogs

theorem sparesAddress_hop : hop.SparesAddress :=
  Hop.sparesAddress_ofTree (by decide +kernel)

end MailLogs

open MailLogs in
theorem Registry.address_of_applyHops_server :
    Operation.address (Operation.create "restart" server) = .ok server ∧
    RejectsInPlace context [hop] server ∧
    exists sent, (run (applyHops [hop] server (Operation.create "restart" server)) context).1.map
        Outcome.operation? = .ok (some sent) ∧
      Operation.address sent = .ok [Address.subsystemElement "mail", ⟨"host", "smtp"⟩] := by
  have haddress : Operation.address (Operation.create "restart" server) = .ok server := by
    rfl
  have hplace : RejectsInPlace context [hop] server := by
    rw [rejectsInPlace_cons_iff]
    exact ⟨rfl, nofun⟩
  have hhops : ∀ other ∈ [hop], other.SparesAddress ∧
      exists (config : Config) (registry : Registry),
        config.registry = .ok registry ∧ registry.Holds other :=
    List.forall_mem_singleton.mpr
      ⟨sparesAddress_hop, config, registry, registry_config, holds_hop⟩
  rcases Registry.address_of_applyHops (c := context) hhops haddress rfl with ⟨_, _, hsent, _⟩
  exact ⟨haddress, hplace, _, rfl, hsent hplace _ rfl⟩

open MailLogs in
/-- An operation on a file of a rejected log keeps its address, below a server that is called a host
on the target. -/
theorem Registry.not_address_of_applyHops_logFile : config.registry = .ok registry ∧
    registry.Holds hop ∧ hop.SparesAddress ∧
    Operation.address (Operation.create "clear" logFile) = .ok logFile ∧
    (run (applyHops [hop] logFile (Operation.create "clear" logFile)) context).1.map
        Outcome.operation? = .ok (some (Operation.create "clear" logFile)) ∧
    addressAfter [hop] logFile = [Address.subsystemElement "mail", ⟨"host", "smtp"⟩,
      ⟨"log", "errors"⟩, ⟨"file", "today"⟩] ∧
    Operation.address (Operation.create "clear" logFile) ≠ .ok (addressAfter [hop] logFile) := by
  refine ⟨registry_config, holds_hop, sparesAddress_hop, rfl, rfl, rfl, ?_⟩
  have hread : Operation.address (Operation.create "clear" logFile) = .ok logFile := by
    rfl
  rw [hread]
  intro heq
  have hsame : logFile = addressAfter [hop] logFile := Except.ok.inj heq
  revert hsame
  decide +kernel

end MixedDomain
