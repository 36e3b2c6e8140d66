import MixedDomain.Config.Declarations
import MixedDomain.Proofs.Description.Declaring
import MixedDomain.Proofs.Hop.Describing
import MixedDomain.Proofs.Sequence

/-!
# What configurations declare

## Rules

Rules about a resource declare its attributes and operations, and then the resources
below it.  What every such step keeps holds everywhere in the declarations.

## Registries

Every hop that a configuration registers is the hop of declarations that its rules
have made, for single versions and for chains.
-/

namespace MixedDomain

namespace Config

/-!
# What is declared about a resource itself
-/

def OperationRule.Declares (rule : OperationRule) (o : OperationDeclarations) : Prop :=
  exists path attributes,
    AttributeRule.declareAll rule.attributes (AttributeDeclarations.empty path) = .ok attributes ∧
    o = ⟨rule.name, attributes, rule.inherits, rule.withholding, rule.newName?, none⟩

variable {d d' : ResourceDeclarations}

theorem OperationRule.declare_eq_ok {rule : OperationRule} (h : rule.declare d = .ok d') :
    exists o, rule.Declares o ∧ d' = d.addOperation o := by
  rcases Except.bind_eq_ok h with ⟨o, hbegin, hrest⟩
  rcases Except.bind_eq_ok hrest with ⟨attributes, hdeclare, hend⟩
  unfold ResourceDeclarations.beginOperation at hbegin
  split at hbegin
  · cases hbegin
  · cases hbegin
    cases hend
    exact ⟨_, ⟨_, attributes, hdeclare, rfl⟩, rfl⟩

theorem OperationRule.foldlM_declare_eq_ok {rules : List OperationRule}
    (h : rules.foldlM (fun d rule => rule.declare d) d = .ok d') :
    exists overrides, d' = { d with overrides := d.overrides ++ overrides } ∧
      ∀ o ∈ overrides, ∃ rule ∈ rules, rule.Declares o := by
  induction rules generalizing d with
  | nil =>
      cases h
      refine ⟨[], ?_, nofun⟩
      cases d'
      rw [List.append_nil]
  | cons rule rest ih =>
      rw [List.foldlM_cons] at h
      rcases Except.bind_eq_ok h with ⟨mid, hfirst, hrest⟩
      rcases declare_eq_ok hfirst with ⟨o, ho, rfl⟩
      rcases ih hrest with ⟨overrides, rfl, hoverrides⟩
      refine ⟨o :: overrides, by simp [ResourceDeclarations.addOperation], ?_⟩
      intro other hother
      rcases List.mem_cons.mp hother with rfl | hmem
      · exact ⟨rule, List.mem_cons_self, ho⟩
      · rcases hoverrides other hmem with ⟨found, hfound, hdeclares⟩
        exact ⟨found, List.mem_cons_of_mem rule hfound, hdeclares⟩

namespace ResourceRules

theorem declareOwn_eq_ok {attributes : List AttributeRule} {discarded rejected : List String}
    {operations : List OperationRule} {newAttributes : List String}
    (h : declareOwn attributes discarded rejected operations newAttributes d = .ok d') :
    exists declared overrides, AttributeRule.declareAll attributes d.attributes = .ok declared ∧
      (∀ o ∈ overrides, ∃ rule ∈ operations, rule.Declares o) ∧
      d' = { d with
        attributes := declared
        discarded := d.discarded ++ discarded
        rejected := d.rejected ++ rejected
        overrides := d.overrides ++ overrides
        placement? := (placementOf? newAttributes).or d.placement? } := by
  rcases Except.bind_eq_ok h with ⟨d₁, hattributes, hrest⟩
  rcases Except.bind_eq_ok hrest with ⟨d₂, hoperations, hend⟩
  rcases Except.map_eq_ok hattributes with ⟨declared, hdeclared, rfl⟩
  rcases OperationRule.foldlM_declare_eq_ok hoperations with ⟨overrides, rfl, hoverrides⟩
  refine ⟨declared, overrides, hdeclared, hoverrides, ?_⟩
  cases hplacement : placementOf? newAttributes with
  | none =>
      rw [hplacement] at hend
      cases hend
      rfl
  | some placement =>
      rw [hplacement] at hend
      cases hend
      rfl

/-!
# What is declared below
-/

mutual

def all : ResourceRules -> List ResourceRules
  | .node attributes discarded rejected operations children newAttributes =>
      .node attributes discarded rejected operations children newAttributes :: allBelow children

def allBelow : List (ChildRule × ResourceRules) -> List ResourceRules
  | [] => []
  | (_, resource) :: rest => all resource ++ allBelow rest

end

end ResourceRules

/-- Whether a property of declarations about a resource holds at first, and is kept by rules with
another property. -/
structure KeptByRules (q : ResourceRules -> Prop) (p : ResourceDeclarations -> Prop) : Prop where
  start : forall parent e w {redirection? : Option Redirection},
    (∀ redirection ∈ redirection?, exists e, redirection = .element e) ->
    p (ResourceDeclarations.start parent e (.fixed w) redirection?)
  own : forall {attributes discarded rejected operations children newAttributes d d'},
    q (.node attributes discarded rejected operations children newAttributes) -> p d ->
    ResourceRules.declareOwn attributes discarded rejected operations newAttributes d = .ok d' ->
    p d'
  addChild : forall {d} child, p d -> p (d.addChild child)

namespace KeptByRules

variable {q : ResourceRules -> Prop} {p : ResourceDeclarations -> Prop}

theorem everywhere_start (hkept : KeptByRules q p) (parent : Address) (e : PathElement)
    (w : Withholding) {redirection? : Option Redirection}
    (h : ∀ redirection ∈ redirection?, exists e, redirection = .element e) :
    (ResourceDeclarations.start parent e (.fixed w) redirection?).Everywhere p :=
  .intro (hkept.start parent e w h) nofun

theorem everywhere_ofSubsystem (hkept : KeptByRules q p) (name : String) :
    (ResourceDeclarations.ofSubsystem name).Everywhere p :=
  hkept.everywhere_start Address.root (Address.subsystemElement name) .never nofun

theorem everywhere_begin (hkept : KeptByRules q p) {rule : ChildRule}
    {child : ResourceDeclarations} (h : rule.begin d = .ok child) : child.Everywhere p := by
  unfold ChildRule.begin at h
  extract_lets redirection? at h
  have helement : ∀ redirection ∈ redirection?, exists e, redirection = .element e := by
    intro redirection hredirection
    unfold redirection? at hredirection
    split at hredirection
    · rcases Option.map_eq_some_iff.mp hredirection with ⟨e, _, rfl⟩
      exact ⟨e, rfl⟩
    · cases hredirection
  unfold ResourceDeclarations.beginChild at h
  split at h
  · cases h
  · rw [← Except.ok.inj h]
    exact hkept.everywhere_start d.path rule.element rule.withholding helement

mutual

theorem everywhere_declare (hkept : KeptByRules q p) : (rules : ResourceRules) ->
    (∀ other ∈ rules.all, q other) -> forall {d d' : ResourceDeclarations}, d.Everywhere p ->
      rules.declare d = .ok d' -> d'.Everywhere p
  | .node attributes discarded rejected operations children newAttributes, hall, d, d', hd, h => by
      simp only [ResourceRules.declare] at h
      rcases Except.bind_eq_ok h with ⟨own, hown, hchildren⟩
      rcases List.forall_mem_cons.mp hall with ⟨hhere, hbelow⟩
      refine everywhere_declareChildren hkept children hbelow ?_ hchildren
      refine .intro (hkept.own hhere hd.own hown) ?_
      rcases ResourceRules.declareOwn_eq_ok hown with ⟨declared, overrides, _, _, rfl⟩
      exact hd.of_mem

theorem everywhere_declareChildren (hkept : KeptByRules q p) :
    (children : List (ChildRule × ResourceRules)) ->
    (∀ other ∈ ResourceRules.allBelow children, q other) ->
    forall {d d' : ResourceDeclarations}, d.Everywhere p ->
      ResourceRules.declareChildren children d = .ok d' -> d'.Everywhere p
  | [], _, d, d', hd, h => by
      cases h
      exact hd
  | (rule, resource) :: rest, hall, d, d', hd, h => by
      simp only [ResourceRules.declareChildren] at h
      rcases List.forall_mem_append.mp hall with ⟨hhere, hbelow⟩
      rcases Except.bind_eq_ok h with ⟨begun, hbegin, hafter⟩
      have hbegun := hkept.everywhere_begin hbegin
      have hadded : forall {child : ResourceDeclarations}, child.Everywhere p ->
          (d.addChild child).Everywhere p := fun hchild =>
        hd.addChild (hkept.addChild _ hd.own) hchild
      split at hafter
      · rcases Except.bind_eq_ok hafter with ⟨child, hchild, hrest⟩
        exact everywhere_declareChildren hkept rest hbelow
          (hadded (everywhere_declare hkept resource hhere hbegun hchild)) hrest
      · exact everywhere_declareChildren hkept rest hbelow (hadded hbegun) hafter

end

end KeptByRules
end Config

/-!
# Chains
-/

namespace ChainDeclarations

variable {p : ResourceDeclarations -> Prop}

def Everywhere (p : ResourceDeclarations -> Prop) (chain : ChainDeclarations) : Prop :=
  ∀ hop ∈ chain.hops, hop.resource.Everywhere p

def Describes (p : ResourceDeclarations -> Prop) (tree : DescriptionTree) : Prop :=
  exists d : ResourceDeclarations, d.Everywhere p ∧ tree = d.describe

theorem Everywhere.hop {chain : ChainDeclarations} (h : chain.Everywhere p)
    (hstart : (ResourceDeclarations.ofSubsystem chain.subsystem).Everywhere p)
    (source target : ModelVersion) : (chain.hop source target).Everywhere p := by
  unfold ChainDeclarations.hop
  split
  · rename_i found hfound
    exact h found (List.mem_of_find?_eq_some hfound)
  · exact hstart

theorem mem_insertHop {new hop : HopDeclarations} {hops : List HopDeclarations}
    (h : hop ∈ insertHop new hops) : hop = new ∨ hop ∈ hops := by
  induction hops with
  | nil =>
      exact Or.inl (List.mem_singleton.mp h)
  | cons first rest ih =>
      simp only [insertHop] at h
      split at h
      · exact List.mem_cons.mp h
      · rcases List.mem_cons.mp h with rfl | hrest
        · exact Or.inl rfl
        · exact Or.inr (List.mem_cons_of_mem _ hrest)
      · rcases List.mem_cons.mp h with rfl | hrest
        · exact Or.inr List.mem_cons_self
        · rcases ih hrest with rfl | hmem
          · exact Or.inl rfl
          · exact Or.inr (List.mem_cons_of_mem _ hmem)

theorem Everywhere.withHop {chain : ChainDeclarations} (h : chain.Everywhere p)
    (source target : ModelVersion) {resource : ResourceDeclarations}
    (hd : resource.Everywhere p) : (chain.withHop source target resource).Everywhere p := by
  intro hop hhop
  rcases mem_insertHop hhop with rfl | hold
  · exact hd
  · exact h hop hold

theorem describes_of_mem_steps {subsystem : String} {hops : List HopDeclarations}
    {found result : List Step} (hhops : ∀ hop ∈ hops, hop.resource.Everywhere p)
    (hfound : ∀ step ∈ found, Describes p step.tree)
    (h : steps subsystem hops found = .ok result) :
    ∀ step ∈ result, Describes p step.tree := by
  induction hops generalizing found with
  | nil =>
      cases h
      exact hfound
  | cons hop rest ih =>
      simp only [steps] at h
      split at h
      · cases h
      · split at h
        · cases h
        · refine ih (fun other hother => hhops other (List.mem_cons_of_mem hop hother)) ?_ h
          intro step hstep
          rcases List.mem_append.mp hstep with hold | hnew
          · exact hfound step hold
          · cases List.mem_singleton.mp hnew
            exact ⟨hop.resource, hhops hop List.mem_cons_self, rfl⟩

theorem describes_of_mem_follow? {found : List Step} {target : ModelVersion} {fuel : Nat}
    {version : ModelVersion} {trees : List DescriptionTree}
    (hfound : ∀ step ∈ found, Describes p step.tree)
    (h : follow? found target fuel version = .ok trees) :
    ∀ tree ∈ trees, Describes p tree := by
  induction fuel generalizing version trees with
  | zero =>
      unfold follow? at h
      split at h
      · cases h
        exact fun _ hmem => nomatch hmem
      · cases h
  | succ fuel ih =>
      unfold follow? at h
      split at h
      · cases h
        exact fun _ hmem => nomatch hmem
      · split at h
        · rename_i rest step hcount hstep
          cases hcount
          split at h
          · cases h
          · rcases Except.map_eq_ok h with ⟨below, hbelow, rfl⟩
            intro tree htree
            rcases List.mem_cons.mp htree with rfl | hrest
            · exact hfound step (List.mem_of_find?_eq_some hstep)
            · exact ih hbelow tree hrest
        · cases h

theorem describes_of_mem_describe {chain : ChainDeclarations} (h : chain.Everywhere p)
    {targets : List ModelVersion} {chains : List (ModelVersion × List DescriptionTree)}
    (hdescribe : chain.describe targets = .ok chains) :
    ∀ entry ∈ chains, ∀ tree ∈ entry.2, Describes p tree := by
  rcases Except.bind_eq_ok hdescribe with ⟨found, hsteps, htargets⟩
  have hfound : ∀ step ∈ found, Describes p step.tree := by
    apply describes_of_mem_steps h _ hsteps
    intro step hstep
    cases hstep
  clear hdescribe hsteps
  induction targets generalizing chains with
  | nil =>
      cases htargets
      exact fun _ hmem => nomatch hmem
  | cons target rest ih =>
      rw [List.mapM_cons] at htargets
      rcases Except.bind_eq_ok htargets with ⟨entry, hentry, hafter⟩
      rcases Except.bind_eq_ok hafter with ⟨others, hothers, hend⟩
      cases hend
      rcases Except.map_eq_ok hentry with ⟨trees, htrees, rfl⟩
      intro other hother
      rcases List.mem_cons.mp hother with rfl | hmem
      · exact describes_of_mem_follow? hfound htrees
      · exact ih hothers other hmem

end ChainDeclarations

/-!
# Registries
-/

namespace Registry

def DescribedBy (p : ResourceDeclarations -> Prop) (hops : List Hop) : Prop :=
  ∀ hop ∈ hops, exists d : ResourceDeclarations, d.Everywhere p ∧ hop = Hop.ofTree d.describe

variable {p : ResourceDeclarations -> Prop} {r r' : Registry}

theorem everywhere_register (hr : r.Everywhere (DescribedBy p)) (subsystem : String)
    (version : ModelVersion) {d : ResourceDeclarations} (hd : d.Everywhere p) :
    (r.register subsystem version d.describe).Everywhere (DescribedBy p) :=
  hr.registerHops subsystem version (List.forall_mem_singleton.mpr ⟨d, hd, rfl⟩)

theorem everywhere_registerChain (hr : r.Everywhere (DescribedBy p)) {chain : ChainDeclarations}
    (hchain : chain.Everywhere p) {targets : List ModelVersion}
    (h : r.registerChain chain targets = .ok r') : r'.Everywhere (DescribedBy p) := by
  rw [registerChain_eq] at h
  rcases Except.map_eq_ok h with ⟨chains, hdescribe, rfl⟩
  have hall := ChainDeclarations.describes_of_mem_describe hchain hdescribe
  apply List.foldlRecOn (motive := Registry.Everywhere (DescribedBy p))
  · exact hr
  · intro found hfound entry hentry
    unfold registerTrees
    split
    · exact hfound
    · apply hfound.registerHops
      intro hop hhop
      rcases List.mem_map.mp hhop with ⟨tree, htree, rfl⟩
      rcases hall entry hentry tree htree with ⟨d, hd, rfl⟩
      exact ⟨d, hd, rfl⟩

end Registry

namespace Config

/-- The rules about all resources of a subsystem, in all versions and hops. -/
def SubsystemRules.resourceRules (rules : SubsystemRules) : List ResourceRules :=
  (rules.versions.flatMap fun version => version.resource.all)
    ++ rules.chain?.toList.flatMap fun chain => chain.hops.flatMap fun hop => hop.resource.all

def resourceRules (config : Config) : List ResourceRules :=
  config.subsystems.flatMap SubsystemRules.resourceRules

variable {q : ResourceRules -> Prop} {p : ResourceDeclarations -> Prop}

theorem ChainRules.everywhere_declare (hkept : KeptByRules q p) {subsystem : String}
    {rules : ChainRules} (hall : ∀ hop ∈ rules.hops, ∀ other ∈ hop.resource.all, q other)
    {chain : ChainDeclarations} (h : rules.declare subsystem = .ok chain) :
    chain.Everywhere p := by
  refine Except.foldlM_keeps (p := ChainDeclarations.Everywhere p) ?_ ?_ h
  · intro hop hmem before after hbefore hstep
    rcases Except.map_eq_ok hstep with ⟨resource, hdeclare, rfl⟩
    have hhop := hbefore.hop (hkept.everywhere_ofSubsystem _) hop.source hop.target
    exact hbefore.withHop hop.source hop.target
      (hkept.everywhere_declare hop.resource (hall hop hmem) hhop hdeclare)
  · intro hop hhop
    cases hhop

theorem SubsystemRules.everywhere_register (hkept : KeptByRules q p) {rules : SubsystemRules}
    (hall : ∀ other ∈ rules.resourceRules, q other) {r r' : Registry}
    (hr : r.Everywhere (Registry.DescribedBy p)) (h : rules.register r = .ok r') :
    r'.Everywhere (Registry.DescribedBy p) := by
  rcases List.forall_mem_append.mp hall with ⟨hversions, hhops⟩
  rw [List.forall_mem_flatMap] at hversions
  rcases Except.bind_eq_ok h with ⟨mid, hregister, hafter⟩
  have hmid : mid.Everywhere (Registry.DescribedBy p) := by
    refine Except.foldlM_keeps ?_ hr hregister
    intro version hmem before after hbefore hstep
    rcases Except.map_eq_ok hstep with ⟨resource, hdeclare, rfl⟩
    exact Registry.everywhere_register hbefore rules.name version.version
      (hkept.everywhere_declare version.resource (hversions version hmem)
        (hkept.everywhere_ofSubsystem rules.name) hdeclare)
  cases hchain : rules.chain? with
  | none =>
      rw [hchain] at hafter
      cases hafter
      exact hmid
  | some chain =>
      rw [hchain] at hafter hhops
      rcases Except.bind_eq_ok hafter with ⟨declared, hdeclare, hregisterChain⟩
      rw [Option.toList_some, List.flatMap_singleton, List.forall_mem_flatMap] at hhops
      exact Registry.everywhere_registerChain hmid
        (ChainRules.everywhere_declare hkept hhops hdeclare) hregisterChain

theorem registry_eq_ok {config : Config} {r : Registry} (h : config.registry = .ok r) :
    config.subsystems.foldlM SubsystemRules.register Registry.empty = .ok r := by
  unfold registry at h
  cases hfold : config.subsystems.foldlM SubsystemRules.register Registry.empty with
  | error e =>
      rw [hfold] at h
      cases h
  | ok found =>
      rw [hfold] at h
      cases h
      rfl

theorem everywhere_registry (hkept : KeptByRules q p) {config : Config}
    (hall : ∀ rules ∈ config.resourceRules, q rules) {r : Registry}
    (h : config.registry = .ok r) : r.Everywhere (Registry.DescribedBy p) := by
  refine Except.foldlM_keeps ?_ Registry.everywhere_empty (registry_eq_ok h)
  intro rules hmem before after hbefore hstep
  have hrules := fun other hother => hall other (List.mem_flatMap.mpr ⟨rules, hmem, hother⟩)
  exact SubsystemRules.everywhere_register hkept hrules hbefore hstep

end Config
end MixedDomain
