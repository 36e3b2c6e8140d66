import Mathlib.Logic.Relation
import MixedDomain.Proofs.Config.Consistency
import MixedDomain.Proofs.Registry.Chains

/-!
# Chains in configurations

## One hop in several parts

Rules about hops between the same versions are about one resource, and are declared
one after the other.  What has been declared about any two versions shows all rules
about the hop between them so far.

## Chains that can be built

A chain can be built just if the rules about each hop do not contradict each other,
the hops go down, those that start together end together, and they lead from the
current version to all targets.
-/

namespace MixedDomain

namespace ChainDeclarations

variable {source target : ModelVersion}

theorem find?_insertHop (new : HopDeclarations) (hops : List HopDeclarations)
    (source target : ModelVersion) :
    (insertHop new hops).find? (isBetween source target) =
      if isBetween source target new then some new else hops.find? (isBetween source target) := by
  induction hops with
  | nil =>
      cases h : isBetween source target new <;> simp [insertHop, h]
  | cons old rest ih =>
      unfold insertHop
      split
      case h_1 =>
          cases h : isBetween source target new <;> simp [h]
      case h_2 heq =>
          rcases isBetween_iff.mp (isBetween_of_compare_eq_eq heq) with ⟨hsource, htarget⟩
          have hsame : isBetween source target old = isBetween source target new := by
            rw [isBetween, isBetween, hsource, htarget]
          cases h : isBetween source target new <;> simp [h, hsame]
      case h_3 hgt =>
          have hapart := not_isBetween_of_before (before_of_compare_eq_gt hgt)
          rw [List.find?_cons, List.find?_cons, ih]
          cases hold : isBetween source target old with
          | false => rfl
          | true =>
              -- the new hop is not between the versions of the old one
              rcases isBetween_iff.mp hold with ⟨rfl, rfl⟩
              rw [hapart]
              rfl

theorem hop_withHop (chain : ChainDeclarations) (new : HopDeclarations)
    (source target : ModelVersion) :
    (chain.withHop new.source new.target new.resource).hop source target =
      if isBetween source target new then new.resource else chain.hop source target := by
  rw [hop, withHop, find?_insertHop, hop]
  cases isBetween source target new <;> rfl

end ChainDeclarations

namespace Config

/-!
# One hop in several parts
-/

namespace HopRules

def Joins (hops : List HopRules) (source target : ModelVersion) : Prop :=
  ∃ hop ∈ hops, hop.source = source ∧ hop.target = target

def resourceBetween (source target : ModelVersion) (hops : List HopRules) : ResourceRules :=
  (hops.filter fun hop => hop.source = source ∧ hop.target = target).foldl
    (fun rules hop => rules.followedBy hop.resource) ResourceRules.empty

def Agree (hops : List HopRules) : Prop :=
  ∀ hop ∈ hops, (resourceBetween hop.source hop.target hops).IsConsistent

variable {hops before : List HopRules} {hop : HopRules} {source target : ModelVersion}

theorem joins_append_singleton :
    Joins (before ++ [hop]) source target ↔
      Joins before source target ∨ hop.source = source ∧ hop.target = target := by
  simp only [Joins, List.mem_append, List.mem_singleton, or_and_right, exists_or, exists_eq_left]

theorem resourceBetween_append_singleton (source target : ModelVersion) (before : List HopRules)
    (hop : HopRules) :
    resourceBetween source target (before ++ [hop]) =
      if hop.source = source ∧ hop.target = target then
        (resourceBetween source target before).followedBy hop.resource
      else resourceBetween source target before := by
  rw [resourceBetween, List.filter_append, List.foldl_append]
  split
  case isTrue hsame => simp [hsame, resourceBetween]
  case isFalse hother => simp [hother, resourceBetween]

theorem isConsistent_resourceBetween_of_append {rest : List HopRules}
    (h : (resourceBetween source target (before ++ rest)).IsConsistent) :
    (resourceBetween source target before).IsConsistent := by
  induction rest using List.reverseRecOn with
  | nil =>
      rw [List.append_nil] at h
      exact h
  | append_singleton rest hop ih =>
      rw [← List.append_assoc, resourceBetween_append_singleton] at h
      apply ih
      split at h
      · exact h.of_followedBy
      · exact h

theorem agree_iff :
    Agree hops ↔ forall source target, (resourceBetween source target hops).IsConsistent := by
  constructor
  · intro h source target
    by_cases hjoins : Joins hops source target
    · rcases hjoins with ⟨hop, hmem, rfl, rfl⟩
      exact h hop hmem
    · -- about a hop that is not there no rules contradict each other
      have hnone : hops.filter (fun hop => hop.source = source ∧ hop.target = target) = [] := by
        rw [List.filter_eq_nil_iff]
        exact fun hop hmem hbetween => hjoins ⟨hop, hmem, of_decide_eq_true hbetween⟩
      rw [resourceBetween, hnone]
      exact (ResourceRules.shown_start Address.root default (.fixed .never) none).isConsistent
  · exact fun h hop _ => h hop.source hop.target

theorem Agree.of_append {rest : List HopRules} (h : Agree (before ++ rest)) : Agree before :=
  agree_iff.mpr fun source target =>
    isConsistent_resourceBetween_of_append (agree_iff.mp h source target)

end HopRules

/-!
# Declaring hops
-/

namespace ChainRules

open HopRules

def declareHop (chain : ChainDeclarations) (hop : HopRules) :
    Except DescriptionError ChainDeclarations :=
  (hop.resource.declare (chain.hop hop.source hop.target)).map
    fun resource => chain.withHop hop.source hop.target resource

/-- Whether a chain shows the hops that rules are about, and the names that they take there. -/
structure Shown (subsystem : String) (current : ModelVersion) (hops : List HopRules)
    (chain : ChainDeclarations) : Prop where
  subsystem : chain.subsystem = subsystem
  current : chain.current = current
  ordered : chain.hops.Pairwise ChainDeclarations.Before
  resource : forall source target,
    ResourceRules.Shown (resourceBetween source target hops) (chain.hop source target)
  joins : forall source target,
    (chain.hops.find? (ChainDeclarations.isBetween source target)).isSome ↔
      Joins hops source target

variable {subsystem : String} {current : ModelVersion} {hops before : List HopRules}
  {hop : HopRules} {chain chain' : ChainDeclarations}

theorem Shown.agree (h : Shown subsystem current hops chain) : Agree hops :=
  agree_iff.mpr fun source target => (h.resource source target).isConsistent

theorem shown_empty (subsystem : String) (current : ModelVersion) :
    Shown subsystem current [] (ChainDeclarations.empty subsystem current) where
  subsystem := rfl
  current := rfl
  ordered := List.Pairwise.nil
  resource _ _ := ResourceRules.shown_start _ _ _ _
  joins _ _ := by simp [ChainDeclarations.empty, Joins]

theorem Shown.declareHop_accepts (h : Shown subsystem current before chain)
    (hagree : Agree (before ++ [hop])) : ∃ chain', declareHop chain hop = .ok chain' := by
  have hconsistent := hagree hop (by simp)
  rw [resourceBetween_append_singleton, if_pos ⟨rfl, rfl⟩] at hconsistent
  rcases hop.resource.checked.accepts _ _ (h.resource hop.source hop.target) hconsistent with
    ⟨resource, hresource⟩
  exact ⟨_, Except.map_of_eq_ok _ hresource⟩

theorem Shown.declareHop_keeps (h : Shown subsystem current before chain)
    (hdeclare : declareHop chain hop = .ok chain') :
    Shown subsystem current (before ++ [hop]) chain' := by
  rcases Except.map_eq_ok hdeclare with ⟨resource, hresource, rfl⟩
  have hshown := hop.resource.checked.keeps _ _ _ (h.resource hop.source hop.target) hresource
  -- nothing changes about hops between other versions
  let new : HopDeclarations := ⟨hop.source, hop.target, resource⟩
  have hsame : forall source target, ChainDeclarations.isBetween source target new = true ↔
      hop.source = source ∧ hop.target = target :=
    fun _ _ => ChainDeclarations.isBetween_iff
  constructor
  · exact h.subsystem
  · exact h.current
  · exact ChainDeclarations.pairwise_insertHop h.ordered
  · intro source target
    rw [ChainDeclarations.hop_withHop chain new, if_congr (hsame source target) rfl rfl,
      resourceBetween_append_singleton]
    split
    case isTrue hbetween =>
        rcases hbetween with ⟨rfl, rfl⟩
        exact hshown
    case isFalse => exact h.resource source target
  · intro source target
    rw [joins_append_singleton, ← h.joins, ChainDeclarations.withHop,
      ChainDeclarations.find?_insertHop, if_congr (hsame source target) rfl rfl]
    split
    case isTrue hbetween => simp [hbetween]
    case isFalse hother => simp [hother]

theorem checks_declareHop (subsystem : String) (current : ModelVersion) (hops : List HopRules) :
    Except.Checks declareHop Agree (Shown subsystem current) hops where
  of_append _ _ h := h.of_append
  accepts _ _ _ _ h hagree := h.declareHop_accepts hagree
  keeps _ _ _ _ _ h hdeclare := h.declareHop_keeps hdeclare

/-!
# Following the hops
-/

theorem Shown.joins_iff (h : Shown subsystem current hops chain) (source target : ModelVersion) :
    Joins hops source target ↔
      ∃ hop ∈ chain.hops, hop.source = source ∧ hop.target = target := by
  rw [← h.joins, List.find?_isSome]
  simp only [ChainDeclarations.isBetween_iff]

theorem Shown.exists_leadsTo_iff (h : Shown subsystem current hops chain)
    {version target : ModelVersion} :
    (∃ path, ChainDeclarations.LeadsTo chain.hops version target path) ↔
      Relation.ReflTransGen (Joins hops) version target := by
  constructor
  · rintro ⟨path, hpath⟩
    induction hpath with
    | here version => exact .refl
    | hop hmem hsource _ ih =>
        exact .head ((h.joins_iff _ _).mpr ⟨_, hmem, hsource, rfl⟩) ih
  · intro hreaches
    induction hreaches using Relation.ReflTransGen.head_induction_on with
    | refl => exact ⟨[], .here target⟩
    | head hjoins _ ih =>
        rcases (h.joins_iff _ _).mp hjoins with ⟨hop, hmem, hsource, rfl⟩
        rcases ih with ⟨path, hpath⟩
        exact ⟨hop :: path, .hop hmem hsource hpath⟩

/-- Whether every hop goes down, and hops that start together end together. -/
structure Descends (hops : List HopRules) : Prop where
  older : ∀ hop ∈ hops, hop.target.older hop.source = true
  apart : ∀ hop ∈ hops, ∀ other ∈ hops, hop.source = other.source -> hop.target = other.target

theorem Shown.descends_iff (h : Shown subsystem current hops chain) :
    ChainDeclarations.Descends chain.hops ↔ Descends hops := by
  constructor
  · rintro ⟨holder, hapart⟩
    constructor
    · intro hop hmem
      rcases (h.joins_iff _ _).mp ⟨hop, hmem, rfl, rfl⟩ with ⟨declared, hdeclared, hs, ht⟩
      rw [← hs, ← ht]
      exact holder declared hdeclared
    · intro hop hmem other hother hsource
      rcases (h.joins_iff _ _).mp ⟨hop, hmem, rfl, rfl⟩ with ⟨declared, hdeclared, hs, ht⟩
      rcases (h.joins_iff _ _).mp ⟨other, hother, rfl, rfl⟩ with ⟨declared', hdeclared', hs', ht'⟩
      rw [← ht, ← ht']
      exact hapart declared hdeclared declared' hdeclared' (hs.trans (hsource.trans hs'.symm))
  · rintro ⟨holder, hapart⟩
    constructor
    · intro declared hmem
      rcases (h.joins_iff _ _).mpr ⟨declared, hmem, rfl, rfl⟩ with ⟨hop, hhop, hs, ht⟩
      rw [← hs, ← ht]
      exact holder hop hhop
    · intro declared hmem declared' hmem' hsource
      rcases (h.joins_iff _ _).mpr ⟨declared, hmem, rfl, rfl⟩ with ⟨hop, hhop, hs, ht⟩
      rcases (h.joins_iff _ _).mpr ⟨declared', hmem', rfl, rfl⟩ with ⟨other, hother, hs', ht'⟩
      rw [← ht, ← ht']
      exact hapart hop hhop other hother (hs.trans (hsource.trans hs'.symm))

/-!
# Chains that can be built
-/

/-- Whether the rules about a chain can be built. -/
structure IsBuildable (rules : ChainRules) : Prop where
  agree : Agree rules.hops
  descends : Descends rules.hops
  reaches : ∀ target ∈ rules.targets,
    Relation.ReflTransGen (Joins rules.hops) rules.current target

variable {rules : ChainRules} {r r' : Registry}

theorem IsBuildable.exists_registerChain (h : rules.IsBuildable) (subsystem : String)
    (r : Registry) : ∃ chain r', rules.declare subsystem = .ok chain ∧
      r.registerChain chain rules.targets = .ok r' := by
  rcases (checks_declareHop subsystem rules.current rules.hops).foldlM_accepts
    (shown_empty subsystem rules.current) h.agree with ⟨chain, hchain⟩
  have hshown := (checks_declareHop subsystem rules.current rules.hops).foldlM_keeps
    (shown_empty subsystem rules.current) hchain
  have hreached : ∀ target ∈ rules.targets,
      ∃ path, ChainDeclarations.LeadsTo chain.hops chain.current target path := by
    intro target htarget
    rw [hshown.current]
    exact hshown.exists_leadsTo_iff.mpr (h.reaches target htarget)
  rcases ChainDeclarations.exists_describe_eq_ok hshown.ordered
    (hshown.descends_iff.mpr h.descends) hreached with ⟨chains, hchains⟩
  have hregister := Registry.registerChain_eq chain rules.targets r
  exact ⟨chain, _, hchain, hregister.trans (Except.map_of_eq_ok _ hchains)⟩

theorem isBuildable_of_registerChain (hchain : rules.declare subsystem = .ok chain)
    (h : r.registerChain chain rules.targets = .ok r') : rules.IsBuildable := by
  have hshown := (checks_declareHop subsystem rules.current rules.hops).foldlM_keeps
    (shown_empty subsystem rules.current) hchain
  rw [Registry.registerChain_eq] at h
  rcases Except.map_eq_ok h with ⟨chains, hchains, _⟩
  rcases (ChainDeclarations.describe_eq_ok_iff hshown.ordered).mp hchains with ⟨hdescends, hall⟩
  refine ⟨hshown.agree, hshown.descends_iff.mp hdescends, ?_⟩
  intro target htarget
  rcases List.exists_of_mem_of_forall₂ hall htarget with ⟨_, _, path, hpath, _⟩
  rw [hshown.current] at hpath
  exact hshown.exists_leadsTo_iff.mp ⟨path, hpath⟩

end ChainRules
end Config
end MixedDomain
