import MixedDomain.Proofs.Config.Chaining

/-!
# Valid configurations

## Building

The registry of a configuration can be built just if its rules do not contradict each
other in any version or hop, and its chains lead to all targets.  Then it has hops to
the versions that are declared, and to no others.

## Validation

A configuration is valid just if its registry can be built, every subsystem has a name
of its own, and none is declared without versions.
-/

namespace MixedDomain

/-!
# What is registered
-/

namespace Registry

theorem isRegistered_register (r : Registry) (subsystem name : String)
    (version other : ModelVersion) (tree : DescriptionTree) :
    (r.register subsystem version tree).isRegistered name other = true ↔
      (name = subsystem ∧ other = version) ∨ r.isRegistered name other = true := by
  rw [isRegistered, register, hopsTo?_registerHops, isRegistered, eq_comm (a := name),
    eq_comm (a := other)]
  split
  case isTrue hsame => simp [hsame]
  case isFalse hother => simp [hother]

theorem isRegistered_registerChain {r r' : Registry} {chain : ChainDeclarations}
    {targets : List ModelVersion} (hordered : chain.hops.Pairwise ChainDeclarations.Before)
    (h : r.registerChain chain targets = .ok r') (name : String) (version : ModelVersion) :
    r'.isRegistered name version = true ↔
      (name = chain.subsystem ∧ version ∈ targets ∧ version ≠ chain.current) ∨
        r.isRegistered name version = true := by
  rw [registerChain_eq] at h
  rcases Except.map_eq_ok h with ⟨chains, hchains, rfl⟩
  have hways := ChainDeclarations.listsWays_of_describe hordered hchains
  rw [isRegistered, isRegistered]
  by_cases hnew : name = chain.subsystem ∧ version ∈ targets ∧ version ≠ chain.current
  · rcases hnew with ⟨rfl, htarget, hne⟩
    rcases List.exists_of_mem_of_forall₂ hways htarget with ⟨_, _, path, hway, _⟩
    -- only the way to the current version is empty, and empty ways are not registered
    have hpath : path ≠ [] := fun hnil => hne (hway.eq_nil_iff.mp hnil)
    rw [hopsTo?_of_isWayTo r hways htarget hway hpath]
    exact iff_of_true rfl (Or.inl ⟨rfl, htarget, hne⟩)
  · rw [hopsTo?_of_not_target r hways hnew, or_iff_right hnew]

theorem isRegistered_empty (name : String) (version : ModelVersion) :
    empty.isRegistered name version = false := by
  rfl

end Registry

namespace Config

/-!
# Versions
-/

theorem ResourceRules.exists_declare_ofSubsystem_iff {rules : ResourceRules} (name : String) :
    (∃ d, rules.declare (ResourceDeclarations.ofSubsystem name) = .ok d) ↔ rules.IsConsistent := by
  have hstart : Shown empty (ResourceDeclarations.ofSubsystem name) := shown_start _ _ _ _
  rw [← isConsistent_empty_followedBy]
  constructor
  · rintro ⟨d, hd⟩
    exact (rules.checked.keeps _ _ _ hstart hd).isConsistent
  · exact rules.checked.accepts _ _ hstart

namespace VersionRules

def Agree (versions : List VersionRules) : Prop :=
  ∀ version ∈ versions, version.resource.IsConsistent

/-- Whether a registry has, apart from what another one has, hops to the versions that rules are
about. -/
structure Shown (subsystem : String) (r : Registry) (versions : List VersionRules)
    (r' : Registry) : Prop where
  agree : Agree versions
  registered : forall name version, r'.isRegistered name version = true ↔
    (name = subsystem ∧ version ∈ versions.map VersionRules.version) ∨
      r.isRegistered name version = true

theorem checks_register (subsystem : String) (r : Registry) (versions : List VersionRules) :
    Except.Checks (register subsystem) Agree (Shown subsystem r) versions where
  of_append _ _ h := (List.forall_mem_append.mp h).1
  accepts version _ before r' _ hagree := by
    have hconsistent := hagree version (by simp)
    rcases (ResourceRules.exists_declare_ofSubsystem_iff subsystem).mpr hconsistent with ⟨d, hd⟩
    exact ⟨_, Except.map_of_eq_ok _ hd⟩
  keeps version _ before r' r'' h hregister := by
    rcases Except.map_eq_ok hregister with ⟨d, hd, rfl⟩
    have hconsistent := (ResourceRules.exists_declare_ofSubsystem_iff subsystem).mp ⟨d, hd⟩
    constructor
    · exact List.forall_mem_append.mpr ⟨h.agree, List.forall_mem_singleton.mpr hconsistent⟩
    · intro name other
      rw [Registry.isRegistered_register, h.registered, List.map_append, List.map_singleton,
        List.mem_append, List.mem_singleton, and_or_left, ← or_assoc, or_comm (b := _ ∧ _ ∈ _)]

end VersionRules

/-!
# Subsystems
-/

namespace SubsystemRules

/-- Whether the rules about a subsystem can be built. -/
structure IsBuildable (rules : SubsystemRules) : Prop where
  versions : VersionRules.Agree rules.versions
  chain : ∀ chain ∈ rules.chain?, chain.IsBuildable

/-- Whether rules declare a version: on its own, or as a target of the chain other than the current
version. -/
def Declares (rules : SubsystemRules) (version : ModelVersion) : Prop :=
  version ∈ rules.versions.map VersionRules.version ∨
    ∃ chain ∈ rules.chain?, version ∈ chain.targets ∧ version ≠ chain.current

variable {rules : SubsystemRules} {r r' : Registry}

theorem shown_nil (rules : SubsystemRules) (r : Registry) :
    VersionRules.Shown rules.name r [] r :=
  ⟨nofun, by simp⟩

theorem IsBuildable.exists_register (h : rules.IsBuildable) (r : Registry) :
    ∃ r', rules.register r = .ok r' := by
  rcases (VersionRules.checks_register rules.name r rules.versions).foldlM_accepts
    (shown_nil rules r) h.versions with ⟨mid, hmid⟩
  cases hchain : rules.chain? with
  | none =>
      refine ⟨mid, Except.bind_of_eq_ok hmid ?_⟩
      rw [hchain]
      rfl
  | some chain =>
      rcases (h.chain chain hchain).exists_registerChain rules.name mid with
        ⟨declared, r', hdeclared, hr'⟩
      refine ⟨r', Except.bind_of_eq_ok hmid ?_⟩
      rw [hchain]
      exact Except.bind_of_eq_ok hdeclared hr'

theorem isBuildable_of_register (h : rules.register r = .ok r') :
    rules.IsBuildable ∧ forall name version, r'.isRegistered name version = true ↔
      (name = rules.name ∧ rules.Declares version) ∨ r.isRegistered name version = true := by
  rcases Except.bind_eq_ok h with ⟨mid, hmid, hafter⟩
  have hshown := (VersionRules.checks_register rules.name r rules.versions).foldlM_keeps
    (shown_nil rules r) hmid
  cases hchain : rules.chain? with
  | none =>
      rw [hchain] at hafter
      cases hafter
      refine ⟨⟨hshown.agree, by simp [hchain]⟩, ?_⟩
      intro name version
      rw [hshown.registered]
      simp [Declares, hchain]
  | some chain =>
      rw [hchain] at hafter
      rcases Except.bind_eq_ok hafter with ⟨declared, hdeclared, hr'⟩
      have hchained := (ChainRules.checks_declareHop rules.name chain.current chain.hops).foldlM_keeps
        (ChainRules.shown_empty rules.name chain.current) hdeclared
      refine ⟨⟨hshown.agree, ?_⟩, ?_⟩
      · intro other hother
        cases hchain.symm.trans hother
        exact ChainRules.isBuildable_of_registerChain hdeclared hr'
      · intro name version
        rw [Registry.isRegistered_registerChain hchained.ordered hr', hshown.registered,
          hchained.subsystem, hchained.current]
        simp only [Declares, hchain, Option.mem_some_iff, exists_eq_left', List.nil_append]
        tauto

end SubsystemRules

/-!
# Configurations
-/

def Declares (config : Config) (name : String) (version : ModelVersion) : Prop :=
  ∃ rules ∈ config.subsystems, name = rules.name ∧ rules.Declares version

/-- Whether a configuration can be built: its subsystems have names of their own and declare
versions, and the rules about each can be built. -/
structure IsBuildable (config : Config) : Prop where
  named : ∀ rules ∈ config.subsystems, rules.name ≠ ""
  distinct : (config.subsystems.map SubsystemRules.name).Nodup
  declares : ∀ rules ∈ config.subsystems, rules.versions ≠ [] ∨ rules.chain?.isSome
  buildable : ∀ rules ∈ config.subsystems, rules.IsBuildable

namespace SubsystemRules

/-- Whether a registry has hops to the versions that rules declare, which can be built. -/
structure Shown (subsystems : List SubsystemRules) (r : Registry) : Prop where
  buildable : ∀ rules ∈ subsystems, rules.IsBuildable
  registered : forall name version, r.isRegistered name version = true ↔
    ∃ rules ∈ subsystems, name = rules.name ∧ rules.Declares version

theorem shown_empty : Shown [] Registry.empty :=
  ⟨nofun, by simp [Registry.isRegistered_empty]⟩

theorem checks_register (subsystems : List SubsystemRules) :
    Except.Checks register (fun subsystems => ∀ rules ∈ subsystems, rules.IsBuildable) Shown
      subsystems where
  of_append _ _ h := (List.forall_mem_append.mp h).1
  accepts rules _ before r _ hall := (hall rules (by simp)).exists_register r
  keeps rules _ before r r' h hregister := by
    rcases isBuildable_of_register hregister with ⟨hbuildable, hregistered⟩
    constructor
    · exact List.forall_mem_append.mpr ⟨h.buildable, List.forall_mem_singleton.mpr hbuildable⟩
    · intro name version
      rw [hregistered, h.registered]
      simp only [List.mem_append, List.mem_singleton, or_and_right, exists_or, exists_eq_left]
      exact or_comm

end SubsystemRules

/-- A registry can be built from rules about subsystems just if those about each can be. -/
theorem exists_registry_iff (config : Config) :
    (∃ r, config.registry = .ok r) ↔ ∀ rules ∈ config.subsystems, rules.IsBuildable := by
  have hchecks := SubsystemRules.checks_register config.subsystems
  constructor
  · rintro ⟨r, hr⟩
    exact (hchecks.foldlM_keeps SubsystemRules.shown_empty (registry_eq_ok hr)).buildable
  · intro h
    rcases hchecks.foldlM_accepts SubsystemRules.shown_empty h with ⟨r, hr⟩
    refine ⟨r, ?_⟩
    rw [registry, hr]
    rfl

theorem isRegistered_registry {config : Config} {r : Registry} (h : config.registry = .ok r)
    (name : String) (version : ModelVersion) :
    r.isRegistered name version = true ↔ config.Declares name version :=
  ((SubsystemRules.checks_register config.subsystems).foldlM_keeps SubsystemRules.shown_empty
    (registry_eq_ok h)).registered name version

/-!
# Validation
-/

theorem checkSubsystem_eq_ok_iff {before : List String} {rules : SubsystemRules} :
    checkSubsystem before rules = .ok () ↔
      rules.name ≠ "" ∧ rules.name ∉ before ∧ (rules.versions ≠ [] ∨ rules.chain?.isSome) := by
  have hnone : (rules.versions.isEmpty && rules.chain?.isNone) = true ↔
      ¬ (rules.versions ≠ [] ∨ rules.chain?.isSome) := by
    rw [Bool.and_eq_true, List.isEmpty_iff, Option.isNone_iff_eq_none, not_or, not_not,
      Option.not_isSome_iff_eq_none]
  unfold checkSubsystem
  split
  case isTrue hempty =>
      exact iff_of_false nofun fun h => h.1 (by simpa using hempty)
  case isFalse hnamed =>
      have hname : rules.name ≠ "" := by simpa using hnamed
      rw [and_iff_right hname]
      split
      case isTrue htaken =>
          exact iff_of_false nofun fun h => h.1 (by simpa using htaken)
      case isFalse hfree =>
          have hnew : rules.name ∉ before := by simpa using hfree
          rw [and_iff_right hnew]
          split
          case isTrue hneither => exact iff_of_false nofun (hnone.mp hneither)
          case isFalse hsome => exact iff_of_true rfl (not_not.mp fun h => hsome (hnone.mpr h))

theorem checkSubsystems_cons {before : List String} {rules : SubsystemRules}
    {rest : List SubsystemRules} :
    checkSubsystems before (rules :: rest) = .ok () ↔
      checkSubsystem before rules = .ok () ∧
        checkSubsystems (rules.name :: before) rest = .ok () := by
  constructor
  · intro h
    rcases Except.bind_eq_ok h with ⟨_, hhere, hrest⟩
    exact ⟨hhere, hrest⟩
  · rintro ⟨hhere, hrest⟩
    exact Except.bind_of_eq_ok hhere hrest

theorem checkSubsystems_eq_ok_iff {before : List String} (subsystems : List SubsystemRules)
    (hbefore : before.Nodup) :
    checkSubsystems before subsystems = .ok () ↔
      (∀ rules ∈ subsystems, rules.name ≠ "") ∧
      (subsystems.map SubsystemRules.name ++ before).Nodup ∧
      ∀ rules ∈ subsystems, rules.versions ≠ [] ∨ rules.chain?.isSome := by
  induction subsystems generalizing before with
  | nil => exact iff_of_true rfl ⟨nofun, hbefore, nofun⟩
  | cons rules rest ih =>
      rw [checkSubsystems_cons, checkSubsystem_eq_ok_iff, List.forall_mem_cons,
        List.forall_mem_cons, List.map_cons, List.cons_append, ← List.nodup_middle]
      constructor
      · rintro ⟨⟨hname, hnew, hdeclares⟩, hrest⟩
        rcases (ih (List.nodup_cons.mpr ⟨hnew, hbefore⟩)).mp hrest with ⟨hnames, hapart, hall⟩
        exact ⟨⟨hname, hnames⟩, hapart, hdeclares, hall⟩
      · rintro ⟨⟨hname, hnames⟩, hapart, hdeclares, hall⟩
        have hhere : (rules.name :: before).Nodup := hapart.of_append_right
        exact ⟨⟨hname, (List.nodup_cons.mp hhere).1, hdeclares⟩,
          (ih hhere).mpr ⟨hnames, hapart, hall⟩⟩

/-- A configuration is valid just if it can be built.  Then the registry has hops to the versions
that are declared, and to no others. -/
theorem validate_eq_ok_iff (config : Config) :
    (config.validate = .ok () ↔ config.IsBuildable) ∧
      (config.IsBuildable -> ∃ r, config.registry = .ok r ∧
        forall name version, r.isRegistered name version = true ↔ config.Declares name version) := by
  have hchecks := checkSubsystems_eq_ok_iff config.subsystems List.nodup_nil
  rw [List.append_nil] at hchecks
  refine ⟨⟨?_, ?_⟩, ?_⟩
  · intro h
    rcases Except.bind_eq_ok h with ⟨_, hnames, hafter⟩
    rcases Except.bind_eq_ok hafter with ⟨r, hr, _⟩
    rcases hchecks.mp hnames with ⟨hnamed, hdistinct, hdeclares⟩
    exact ⟨hnamed, hdistinct, hdeclares, (exists_registry_iff config).mp ⟨r, hr⟩⟩
  · rintro ⟨hnamed, hdistinct, hdeclares, hbuildable⟩
    rcases (exists_registry_iff config).mpr hbuildable with ⟨r, hr⟩
    exact Except.bind_of_eq_ok (hchecks.mpr ⟨hnamed, hdistinct, hdeclares⟩)
      (Except.bind_of_eq_ok hr rfl)
  · intro h
    rcases (exists_registry_iff config).mpr h.buildable with ⟨r, hr⟩
    exact ⟨r, hr, isRegistered_registry hr⟩

/-!
# A chain with a hop in two parts

The rules about the hop down from the current version come in two parts.  Those about a
child that is withheld there contradict each other, which does not matter.
-/

namespace MailChain

def rename (name newName : String) : AttributeRule :=
  { names := [name]
    discard? := none
    discardValues := []
    rejects := []
    rejectValues := []
    fillDefault := false
    fixed? := none
    newName? := some newName }

def contradictory : ResourceRules :=
  .node [rename "port" "tcp-port", rename "port" "udp-port"] [] [] [] [] []

def first : ResourceRules :=
  .node [rename "host" "address"] [] [] [⟨"clear", .silent, false, none, [rename "all" "any"]⟩] []
    []

def second : ResourceRules :=
  .node [rename "port" "tcp-port"] [] [] []
    [(⟨⟨"log", "*"⟩, .silent, none⟩, contradictory), (⟨⟨"server", "*"⟩, .never, none⟩, first)] []

def chain : ChainRules :=
  { current := ⟨3, 0, 0⟩
    targets := [⟨3, 0, 0⟩, ⟨1, 0, 0⟩]
    hops := [
      { source := ⟨3, 0, 0⟩, target := ⟨2, 0, 0⟩, resource := first },
      { source := ⟨2, 0, 0⟩, target := ⟨1, 0, 0⟩, resource := first },
      { source := ⟨3, 0, 0⟩, target := ⟨2, 0, 0⟩, resource := second }] }

def config : Config :=
  { target? := none
    registrations := []
    subsystems := [
      { name := "mail"
        versions := [{ version := ⟨1, 1, 0⟩, resource := first }]
        chain? := some chain }] }

theorem renameOnce_of_nodup (names : List (String × String)) (h : (names.map Prod.fst).Nodup) :
    AttributeRule.RenameOnce (names.map fun pair => rename pair.1 pair.2) := by
  constructor
  · intro rule hrule _
    rcases List.mem_map.mp hrule with ⟨pair, _, rfl⟩
    exact ⟨pair.1, rfl⟩
  · rw [List.flatMap_map]
    simpa [AttributeRule.renamed, rename, ← List.map_eq_flatMap] using h

theorem isConsistent_first : first.IsConsistent := by
  refine ResourceRules.isConsistent_iff.mpr ⟨?_, ⟨by decide, ?_⟩, ⟨by decide, nofun⟩⟩
  · exact renameOnce_of_nodup [("host", "address")] (by decide)
  · exact List.forall_mem_singleton.mpr
      (renameOnce_of_nodup [("all", "any")] (by decide))

theorem isConsistent_first_second :
    ((ResourceRules.empty.followedBy first).followedBy second).IsConsistent := by
  refine ResourceRules.isConsistent_iff.mpr ⟨?_, ⟨by decide, ?_⟩, ⟨by decide, ?_⟩⟩
  · exact renameOnce_of_nodup [("host", "address"), ("port", "tcp-port")] (by decide)
  · exact List.forall_mem_singleton.mpr
      (renameOnce_of_nodup [("all", "any")] (by decide))
  · exact List.forall_mem_cons.mpr ⟨nofun, List.forall_mem_singleton.mpr fun _ => isConsistent_first⟩

theorem isBuildable_chain : chain.IsBuildable := by
  have hparts : HopRules.resourceBetween ⟨3, 0, 0⟩ ⟨2, 0, 0⟩ chain.hops =
      (ResourceRules.empty.followedBy first).followedBy second := by
    rfl
  have hwhole : HopRules.resourceBetween ⟨2, 0, 0⟩ ⟨1, 0, 0⟩ chain.hops =
      ResourceRules.empty.followedBy first := by
    rfl
  have hfirst : HopRules.Joins chain.hops ⟨3, 0, 0⟩ ⟨2, 0, 0⟩ := ⟨_, List.mem_cons_self, rfl, rfl⟩
  have hlast : HopRules.Joins chain.hops ⟨2, 0, 0⟩ ⟨1, 0, 0⟩ :=
    ⟨_, List.mem_cons_of_mem _ List.mem_cons_self, rfl, rfl⟩
  constructor
  · have htwice := hparts.symm ▸ isConsistent_first_second
    have honce := hwhole.symm ▸ ResourceRules.isConsistent_empty_followedBy.mpr isConsistent_first
    exact List.forall_mem_cons.mpr
      ⟨htwice, List.forall_mem_cons.mpr ⟨honce, List.forall_mem_singleton.mpr htwice⟩⟩
  · exact ⟨by decide, by decide⟩
  · exact List.forall_mem_cons.mpr
      ⟨.refl, List.forall_mem_singleton.mpr (.head hfirst (.single hlast))⟩

theorem isBuildable_config : config.IsBuildable := by
  constructor
  · simp [config]
  · exact List.nodup_singleton _
  · simp [config]
  · refine List.forall_mem_singleton.mpr ⟨List.forall_mem_singleton.mpr isConsistent_first, ?_⟩
    rintro _ ⟨⟩
    exact isBuildable_chain

end MailChain

theorem validate_mailChain : MailChain.config.IsBuildable ∧ MailChain.config.validate = .ok () ∧
    ∃ r, MailChain.config.registry = .ok r ∧ r.isRegistered "mail" ⟨1, 0, 0⟩ = true ∧
      r.isRegistered "mail" ⟨3, 0, 0⟩ = false := by
  rcases validate_eq_ok_iff MailChain.config with ⟨hvalid, hregisters⟩
  have hbuildable := MailChain.isBuildable_config
  rcases hregisters hbuildable with ⟨r, hr, hregistered⟩
  refine ⟨hbuildable, hvalid.mpr hbuildable, r, hr, ?_, ?_⟩
  · rw [hregistered]
    exact ⟨_, List.mem_singleton_self _, rfl, Or.inr ⟨_, rfl, by decide⟩⟩
  · rw [← Bool.not_eq_true, hregistered]
    rintro ⟨rules, hrules, _, hversion | ⟨chain, hchain, _, hne⟩⟩
    · cases List.mem_singleton.mp hrules
      exact absurd hversion (by decide)
    · cases List.mem_singleton.mp hrules
      cases hchain
      exact hne rfl

end Config
end MixedDomain
