import Mathlib.Data.List.Count
import Mathlib.Data.List.Induction
import Mathlib.Data.List.Nodup
import MixedDomain.Description.Chain
import MixedDomain.Proofs.Sequence

/-!
# Following hops

## Going down

Every hop that is accepted leads to an older version, and no two start together.  So
there is at most one way from a version to a target, going down it passes every
version once, and a walk that has gone below the target will not come back to it.
There are no more steps to walk than hops that start at or below the version.
-/

namespace MixedDomain
namespace ModelVersion

/-!
# The order of versions
-/

theorem older_iff (a b : ModelVersion) :
    a.older b = true ↔ a.major < b.major ∨ a.major = b.major ∧
      (a.minor < b.minor ∨ a.minor = b.minor ∧ a.micro < b.micro) := by
  simp [older, compare, Ordering.then_eq_lt, Nat.compare_eq_lt]

theorem older_trans {a b c : ModelVersion} (hab : a.older b = true) (hbc : b.older c = true) :
    a.older c = true := by
  rw [older_iff] at *
  omega

theorem compare_eq_lt_iff (a b : ModelVersion) : a.compare b = .lt ↔ a.older b = true := by
  simp [older]

theorem compare_eq_gt_iff (a b : ModelVersion) : a.compare b = .gt ↔ b.older a = true := by
  rw [older_iff]
  simp only [compare, Ordering.then_eq_gt, Nat.compare_eq_gt, Nat.compare_eq_eq]
  omega

end ModelVersion

namespace ChainDeclarations

/-!
# The hops that are declared
-/

def ofHops (subsystem : String) (current : ModelVersion) (declared : List HopDeclarations) :
    ChainDeclarations :=
  declared.foldl (fun chain hop => chain.withHop hop.source hop.target hop.resource)
    (empty subsystem current)

/-- Whether a hop stands before another one: by its source, and then by its target. -/
def Before (hop other : HopDeclarations) : Prop :=
  (hop.source.compare other.source).then (hop.target.compare other.target) = .lt

theorem before_iff {hop other : HopDeclarations} :
    Before hop other ↔ hop.source.older other.source = true ∨
      hop.source = other.source ∧ hop.target.older other.target = true := by
  simp only [Before, Ordering.then_eq_lt, ModelVersion.compare_eq_lt_iff,
    ModelVersion.compare_eq_eq_iff]

theorem before_trans {hop other third : HopDeclarations} (h : Before hop other)
    (h' : Before other third) : Before hop third := by
  rw [before_iff] at *
  rcases h with hsource | ⟨hsource, htarget⟩ <;> rcases h' with hsource' | ⟨hsource', htarget'⟩
  · exact Or.inl (ModelVersion.older_trans hsource hsource')
  · exact Or.inl (hsource' ▸ hsource)
  · exact Or.inl (hsource ▸ hsource')
  · exact Or.inr ⟨hsource.trans hsource', ModelVersion.older_trans htarget htarget'⟩

theorem isBetween_iff {source target : ModelVersion} {hop : HopDeclarations} :
    isBetween source target hop = true ↔ hop.source = source ∧ hop.target = target := by
  simp [isBetween]

theorem not_isBetween_of_before {hop other : HopDeclarations} (h : Before hop other) :
    isBetween hop.source hop.target other = false := by
  rw [← Bool.not_eq_true, isBetween_iff]
  rintro ⟨hsource, htarget⟩
  rw [before_iff, hsource, htarget, ModelVersion.not_older_self, ModelVersion.not_older_self] at h
  simp at h

theorem isBetween_comm (hop other : HopDeclarations) :
    isBetween hop.source hop.target other = isBetween other.source other.target hop := by
  rw [Bool.eq_iff_iff, isBetween_iff, isBetween_iff]
  exact and_congr eq_comm eq_comm

theorem before_of_compare_eq_gt {new old : HopDeclarations}
    (h : (new.source.compare old.source).then (new.target.compare old.target) = .gt) :
    Before old new := by
  rw [Ordering.then_eq_gt, ModelVersion.compare_eq_gt_iff, ModelVersion.compare_eq_gt_iff,
    ModelVersion.compare_eq_eq_iff] at h
  exact before_iff.mpr (h.imp_right fun hsame => ⟨hsame.1.symm, hsame.2⟩)

theorem isBetween_of_compare_eq_eq {new old : HopDeclarations}
    (h : (new.source.compare old.source).then (new.target.compare old.target) = .eq) :
    isBetween new.source new.target old = true := by
  rw [Ordering.then_eq_eq, ModelVersion.compare_eq_eq_iff, ModelVersion.compare_eq_eq_iff] at h
  exact isBetween_iff.mpr ⟨h.1.symm, h.2.symm⟩

/-- A hop that is inserted replaces the one between the same versions, and no other. -/
theorem mem_insertHop_iff {new hop : HopDeclarations} {hops : List HopDeclarations}
    (hordered : hops.Pairwise Before) :
    hop ∈ insertHop new hops ↔
      hop = new ∨ hop ∈ hops ∧ isBetween new.source new.target hop = false := by
  induction hops with
  | nil =>
      simp [insertHop]
  | cons old rest ih =>
      rcases List.pairwise_cons.mp hordered with ⟨hfirst, hrest⟩
      unfold insertHop
      split
      case h_1 hlt =>
          have hapart : ∀ other ∈ old :: rest, isBetween new.source new.target other = false := by
            intro other hother
            apply not_isBetween_of_before
            rcases List.mem_cons.mp hother with rfl | hmem
            · exact hlt
            · exact before_trans hlt (hfirst other hmem)
          rw [List.mem_cons, and_iff_left_of_imp (hapart hop)]
      case h_2 heq =>
          have hsame := isBetween_of_compare_eq_eq heq
          have hapart : ∀ other ∈ rest, isBetween new.source new.target other = false := by
            intro other hother
            rcases isBetween_iff.mp hsame with ⟨hsource, htarget⟩
            rw [← hsource, ← htarget]
            exact not_isBetween_of_before (hfirst other hother)
          rw [List.mem_cons, List.mem_cons, or_and_right, and_iff_left_of_imp (hapart hop)]
          have hold : ¬ (hop = old ∧ isBetween new.source new.target hop = false) := by
            rintro ⟨rfl, hnot⟩
            rw [hsame] at hnot
            cases hnot
          rw [or_iff_right hold]
      case h_3 hgt =>
          have hold := not_isBetween_of_before (before_of_compare_eq_gt hgt)
          rw [isBetween_comm] at hold
          rw [List.mem_cons, List.mem_cons, ih hrest, or_left_comm, or_and_right]
          have hthere : hop = old ∧ isBetween new.source new.target hop = false ↔ hop = old :=
            and_iff_left_of_imp (fun h => h ▸ hold)
          rw [hthere]

theorem pairwise_insertHop {new : HopDeclarations} {hops : List HopDeclarations}
    (hordered : hops.Pairwise Before) : (insertHop new hops).Pairwise Before := by
  induction hops with
  | nil =>
      exact List.pairwise_singleton Before new
  | cons old rest ih =>
      rcases List.pairwise_cons.mp hordered with ⟨hfirst, hrest⟩
      unfold insertHop
      split
      case h_1 hlt =>
          refine List.pairwise_cons.mpr ⟨?_, hordered⟩
          intro other hother
          rcases List.mem_cons.mp hother with rfl | hmem
          · exact hlt
          · exact before_trans hlt (hfirst other hmem)
      case h_2 heq =>
          refine List.pairwise_cons.mpr ⟨?_, hrest⟩
          intro other hother
          rcases isBetween_iff.mp (isBetween_of_compare_eq_eq heq) with ⟨hsource, htarget⟩
          have hbefore := hfirst other hother
          rw [before_iff] at hbefore ⊢
          rw [← hsource, ← htarget]
          exact hbefore
      case h_3 hgt =>
          refine List.pairwise_cons.mpr ⟨?_, ih hrest⟩
          intro other hother
          rcases (mem_insertHop_iff hrest).mp hother with rfl | ⟨hmem, _⟩
          · exact before_of_compare_eq_gt hgt
          · exact hfirst other hmem

theorem ofHops_append_singleton (subsystem : String) (current : ModelVersion)
    (declared : List HopDeclarations) (hop : HopDeclarations) :
    ofHops subsystem current (declared ++ [hop]) =
      (ofHops subsystem current declared).withHop hop.source hop.target hop.resource := by
  simp [ofHops]

theorem subsystem_ofHops (subsystem : String) (current : ModelVersion)
    (declared : List HopDeclarations) :
    (ofHops subsystem current declared).subsystem = subsystem := by
  induction declared using List.reverseRecOn with
  | nil => rfl
  | append_singleton declared hop ih =>
      rw [ofHops_append_singleton]
      exact ih

theorem current_ofHops (subsystem : String) (current : ModelVersion)
    (declared : List HopDeclarations) : (ofHops subsystem current declared).current = current := by
  induction declared using List.reverseRecOn with
  | nil => rfl
  | append_singleton declared hop ih =>
      rw [ofHops_append_singleton]
      exact ih

theorem pairwise_hops_ofHops (subsystem : String) (current : ModelVersion)
    (declared : List HopDeclarations) :
    (ofHops subsystem current declared).hops.Pairwise Before := by
  induction declared using List.reverseRecOn with
  | nil => exact List.Pairwise.nil
  | append_singleton declared hop ih =>
      rw [ofHops_append_singleton]
      exact pairwise_insertHop ih

theorem mem_hops_ofHops_iff (subsystem : String) (current : ModelVersion)
    (declared : List HopDeclarations) (hop : HopDeclarations) :
    hop ∈ (ofHops subsystem current declared).hops ↔
      declared.reverse.find? (isBetween hop.source hop.target) = some hop := by
  induction declared using List.reverseRecOn with
  | nil => simp [ofHops, empty]
  | append_singleton declared new ih =>
      rw [ofHops_append_singleton, List.reverse_append, List.reverse_singleton,
        List.singleton_append, List.find?_cons]
      refine (mem_insertHop_iff (pairwise_hops_ofHops subsystem current declared)).trans ?_
      rw [isBetween_comm hop new]
      cases hbetween : isBetween new.source new.target hop with
      | true => simp [eq_comm]
      | false =>
          have hne : hop ≠ new := by
            rintro rfl
            simp [isBetween] at hbetween
          simp [hne, ih]

/-!
# Accepted hops
-/

section

variable {hops : List HopDeclarations}

/-- Whether every hop leads to an older version, and hops that start together end together. -/
structure Descends (hops : List HopDeclarations) : Prop where
  older : ∀ hop ∈ hops, hop.target.older hop.source = true
  apart : ∀ hop ∈ hops, ∀ other ∈ hops, hop.source = other.source -> hop.target = other.target

theorem not_descends_iff :
    ¬ Descends hops ↔ (∃ hop ∈ hops, hop.target.older hop.source = false) ∨
      ∃ hop ∈ hops, ∃ other ∈ hops, hop.source = other.source ∧ hop.target ≠ other.target := by
  constructor
  · intro h
    by_contra hnone
    push Not at hnone
    refine h ⟨?_, hnone.2⟩
    intro hop hmem
    simpa using hnone.1 hop hmem
  · rintro (⟨hop, hmem, hnot⟩ | ⟨hop, hmem, other, hother, hsource, htarget⟩) hdescends
    · rw [hdescends.older hop hmem] at hnot
      cases hnot
    · exact htarget (hdescends.apart hop hmem other hother hsource)

theorem Descends.nodup (hdescends : Descends hops) (hordered : hops.Pairwise Before) :
    (hops.map HopDeclarations.source).Nodup := by
  rw [List.Nodup, List.pairwise_map]
  apply hordered.imp_of_mem
  intro hop other hmem hother hbefore hsource
  rw [before_iff, hsource, hdescends.apart hop hmem other hother hsource,
    ModelVersion.not_older_self, ModelVersion.not_older_self] at hbefore
  simp at hbefore

def stepOf (hop : HopDeclarations) : Step :=
  ⟨hop.source, hop.target, hop.resource.describe⟩

theorem map_source_stepOf (hops : List HopDeclarations) :
    (hops.map stepOf).map Step.source = hops.map HopDeclarations.source := by
  rw [List.map_map]
  rfl

theorem isSome_stepFrom?_iff {source : ModelVersion} {found : List Step} :
    (stepFrom? source found).isSome = true ↔ source ∈ found.map Step.source := by
  simp [stepFrom?, List.find?_isSome]

/-- Hops that lead down and start apart are all accepted. -/
theorem steps_eq_ok (subsystem : String) {found : List Step}
    (holder : ∀ hop ∈ hops, hop.target.older hop.source = true)
    (hapart : (found.map Step.source ++ hops.map HopDeclarations.source).Nodup) :
    steps subsystem hops found = .ok (found ++ hops.map stepOf) := by
  induction hops generalizing found with
  | nil => simp [steps]
  | cons hop rest ih =>
      rcases List.forall_mem_cons.mp holder with ⟨hdown, hrest⟩
      have hnew : ¬ (stepFrom? hop.source found).isSome = true := by
        rw [isSome_stepFrom?_iff]
        intro hmem
        exact (List.nodup_append.mp hapart).2.2 hop.source hmem hop.source List.mem_cons_self rfl
      have hmoved : ((found ++ [stepOf hop]).map Step.source ++
          rest.map HopDeclarations.source).Nodup := by
        simpa [stepOf] using hapart
      rw [steps, hdown, if_neg (by simp), if_neg hnew]
      exact (ih hrest hmoved).trans (by simp)

theorem exists_steps_eq_error (subsystem : String) {found : List Step}
    (hfound : (found.map Step.source).Nodup)
    (h : ¬ ((∀ hop ∈ hops, hop.target.older hop.source = true) ∧
      (found.map Step.source ++ hops.map HopDeclarations.source).Nodup)) :
    ∃ message, steps subsystem hops found = .error (.invalid message) := by
  induction hops generalizing found with
  | nil => exact absurd ⟨by simp, by simpa using hfound⟩ h
  | cons hop rest ih =>
      rw [steps]
      split
      · exact ⟨_, rfl⟩
      · split
        · exact ⟨_, rfl⟩
        case isFalse.isFalse hdown hnew =>
            rw [isSome_stepFrom?_iff] at hnew
            apply ih
            · rw [List.map_append, List.map_singleton, List.nodup_append]
              refine ⟨hfound, List.nodup_singleton _, ?_⟩
              intro source hsource other hother heq
              rw [heq, List.mem_singleton.mp hother] at hsource
              exact hnew hsource
            · rintro ⟨hrest, hapart⟩
              refine h ⟨List.forall_mem_cons.mpr ⟨by simpa using hdown, hrest⟩, ?_⟩
              simpa using hapart

/-- Hops that descend are all accepted, in their order. -/
theorem steps_of_descends (subsystem : String) (hordered : hops.Pairwise Before)
    (hdescends : Descends hops) : steps subsystem hops [] = .ok (hops.map stepOf) :=
  steps_eq_ok subsystem hdescends.older (hdescends.nodup hordered)

theorem exists_steps_of_not_descends (subsystem : String) (hnot : ¬ Descends hops) :
    ∃ message, steps subsystem hops [] = .error (.invalid message) := by
  have hfound : (([] : List Step).map Step.source).Nodup := List.nodup_nil
  refine exists_steps_eq_error subsystem hfound ?_
  rintro ⟨holder, hapart⟩
  refine hnot ⟨holder, ?_⟩
  intro hop hmem other hother hsource
  rw [List.inj_on_of_nodup_map hapart hmem hother hsource]

/-!
# The way down
-/

/-- The consecutive hops on a way from a version to a target. -/
inductive LeadsTo (hops : List HopDeclarations) :
    ModelVersion -> ModelVersion -> List HopDeclarations -> Prop where
  | here (version : ModelVersion) : LeadsTo hops version version []
  | hop {version target : ModelVersion} {hop : HopDeclarations} {path : List HopDeclarations}
      (hmem : hop ∈ hops) (hsource : hop.source = version)
      (hrest : LeadsTo hops hop.target target path) : LeadsTo hops version target (hop :: path)

theorem LeadsTo.not_older (hdescends : Descends hops) {version target : ModelVersion}
    {path : List HopDeclarations} (h : LeadsTo hops version target path) :
    version.older target = false := by
  induction h with
  | here version => exact ModelVersion.not_older_self version
  | hop hmem hsource hrest ih =>
      rw [← Bool.not_eq_true] at ih ⊢
      intro holder
      subst hsource
      exact ih (ModelVersion.older_trans (hdescends.older _ hmem) holder)

theorem Descends.not_leadsTo_source (hdescends : Descends hops) {hop : HopDeclarations}
    (hmem : hop ∈ hops) (path : List HopDeclarations) :
    ¬ LeadsTo hops hop.target hop.source path := by
  intro h
  have hnot := h.not_older hdescends
  rw [hdescends.older hop hmem] at hnot
  cases hnot

/-- There is at most one way to a target. -/
theorem LeadsTo.unique (hordered : hops.Pairwise Before) (hdescends : Descends hops)
    {version target : ModelVersion} {path other : List HopDeclarations}
    (h : LeadsTo hops version target path) (hother : LeadsTo hops version target other) :
    path = other := by
  induction h generalizing other with
  | here version =>
      cases hother with
      | here => rfl
      | hop hmem hsource hrest =>
          subst hsource
          exact absurd hrest (hdescends.not_leadsTo_source hmem _)
  | hop hmem hsource hrest ih =>
      subst hsource
      cases hother with
      | here => exact absurd hrest (hdescends.not_leadsTo_source hmem _)
      | hop hmem' hsource' hrest' =>
          have hsame :=
            List.inj_on_of_nodup_map (hdescends.nodup hordered) hmem' hmem hsource'
          subst hsame
          rw [ih hrest']

/-!
# Walking it
-/

theorem stepFrom?_of_mem (hapart : (hops.map HopDeclarations.source).Nodup) {hop : HopDeclarations}
    (hmem : hop ∈ hops) : stepFrom? hop.source (hops.map stepOf) = some (stepOf hop) := by
  rw [← map_source_stepOf] at hapart
  exact List.find?_key_of_mem hapart (List.mem_map_of_mem hmem)

theorem exists_of_stepFrom? {version : ModelVersion} {step : Step}
    (h : stepFrom? version (hops.map stepOf) = some step) :
    ∃ hop ∈ hops, hop.source = version ∧ stepOf hop = step := by
  rcases List.mem_map.mp (List.mem_of_find?_eq_some h) with ⟨hop, hmem, rfl⟩
  have hsource : (stepOf hop).source = version := by
    simpa only [beq_iff_eq] using List.find?_some h
  exact ⟨hop, hmem, hsource, rfl⟩

theorem follow?_self (found : List Step) (target : ModelVersion) (fuel : Nat) :
    follow? found target fuel target = .ok [] := by
  unfold follow?
  exact if_pos rfl

theorem follow?_of_stepFrom?_eq_none {found : List Step} {target version : ModelVersion}
    (fuel : Nat) (hne : version ≠ target) (hnone : stepFrom? version found = none) :
    follow? found target fuel version = .error (.brokenChain version target) := by
  unfold follow?
  rw [if_neg hne, hnone]
  cases fuel <;> rfl

theorem follow?_zero (found : List Step) {target version : ModelVersion} (hne : version ≠ target) :
    follow? found target 0 version = .error (.brokenChain version target) := by
  unfold follow?
  exact if_neg hne

theorem follow?_succ {target version : ModelVersion} {hop : HopDeclarations}
    (fuel : Nat) (hne : version ≠ target)
    (hstep : stepFrom? version (hops.map stepOf) = some (stepOf hop)) :
    follow? (hops.map stepOf) target (fuel + 1) version =
      if hop.target.older target then .error (.brokenChain version target)
      else (follow? (hops.map stepOf) target fuel hop.target).map
        fun trees => hop.resource.describe :: trees := by
  conv_lhs => unfold follow?
  rw [if_neg hne, hstep]
  rfl

/-- A walk is at the target, goes over a hop, or breaks. -/
theorem follow?_cases (hops : List HopDeclarations) (target : ModelVersion) (fuel : Nat)
    (version : ModelVersion) :
    (version = target ∧ follow? (hops.map stepOf) target fuel version = .ok []) ∨
    (∃ hop ∈ hops, hop.source = version ∧ ∃ less, fuel = less + 1 ∧
      follow? (hops.map stepOf) target fuel version =
        (follow? (hops.map stepOf) target less hop.target).map
          fun trees => hop.resource.describe :: trees) ∨
    follow? (hops.map stepOf) target fuel version = .error (.brokenChain version target) := by
  by_cases hend : version = target
  · subst hend
    exact Or.inl ⟨rfl, follow?_self _ _ _⟩
  · refine Or.inr ?_
    cases hstep : stepFrom? version (hops.map stepOf) with
    | none => exact Or.inr (follow?_of_stepFrom?_eq_none fuel hend hstep)
    | some step =>
        cases fuel with
        | zero => exact Or.inr (follow?_zero _ hend)
        | succ less =>
            rcases exists_of_stepFrom? hstep with ⟨hop, hmem, hsource, rfl⟩
            rw [follow?_succ less hend hstep]
            split
            · exact Or.inr rfl
            · exact Or.inl ⟨hop, hmem, hsource, less, rfl, rfl⟩

def below (hops : List HopDeclarations) (version : ModelVersion) : Nat :=
  hops.countP fun hop => !version.older hop.source

theorem below_le_length (hops : List HopDeclarations) (version : ModelVersion) :
    below hops version ≤ hops.length :=
  List.countP_le_length

theorem Descends.below_lt (hdescends : Descends hops) {hop : HopDeclarations} (hmem : hop ∈ hops) :
    below hops hop.target < below hops hop.source := by
  have hdown := hdescends.older hop hmem
  apply List.countP_lt_countP_of_mem hmem
  · intro other hother
    rw [Bool.not_eq_true', ← Bool.not_eq_true] at hother ⊢
    exact fun holder => hother (ModelVersion.older_trans hdown holder)
  · rw [hdown]
    rfl
  · rw [ModelVersion.not_older_self]
    rfl

/-- A walk over steps without any bound on their number: it ends at the target, at a version
without a step, or before a step that leads below the target. -/
inductive Walks (found : List Step) (target : ModelVersion) :
    ModelVersion -> Except DescriptionError (List DescriptionTree) -> Prop where
  | arrives : Walks found target target (.ok [])
  | lacks {version : ModelVersion} (hne : version ≠ target)
      (hnone : stepFrom? version found = none) :
      Walks found target version (.error (.brokenChain version target))
  | passes {version : ModelVersion} {step : Step} (hne : version ≠ target)
      (hstep : stepFrom? version found = some step) (hpast : step.target.older target = true) :
      Walks found target version (.error (.brokenChain version target))
  | goesOn {version : ModelVersion} {step : Step}
      {result : Except DescriptionError (List DescriptionTree)} (hne : version ≠ target)
      (hstep : stepFrom? version found = some step) (hnot : step.target.older target = false)
      (hrest : Walks found target step.target result) :
      Walks found target version (result.map fun trees => step.tree :: trees)

/-- Every walk over descending hops ends, after at most as many steps as there are hops below. -/
theorem Descends.walks_follow? (hdescends : Descends hops) (target : ModelVersion)
    {version : ModelVersion} {fuel : Nat} (hfuel : below hops version ≤ fuel) :
    Walks (hops.map stepOf) target version (follow? (hops.map stepOf) target fuel version) := by
  induction fuel using Nat.strongRecOn generalizing version with
  | ind fuel ih =>
      by_cases hend : version = target
      · rw [hend, follow?_self]
        exact Walks.arrives
      · cases hstep : stepFrom? version (hops.map stepOf) with
        | none =>
            rw [follow?_of_stepFrom?_eq_none fuel hend hstep]
            exact Walks.lacks hend hstep
        | some step =>
            rcases exists_of_stepFrom? hstep with ⟨hop, hmem, rfl, rfl⟩
            have hbelow : below hops hop.target < fuel :=
              Nat.lt_of_lt_of_le (hdescends.below_lt hmem) hfuel
            rcases Nat.exists_eq_succ_of_ne_zero (Nat.ne_zero_of_lt hbelow) with ⟨less, rfl⟩
            rw [follow?_succ less hend hstep]
            split
            case isTrue hpast => exact Walks.passes hend hstep hpast
            case isFalse hnot =>
                refine Walks.goesOn hend hstep (Bool.eq_false_iff.mpr hnot) ?_
                exact ih less (Nat.lt_succ_self less) (Nat.le_of_lt_succ hbelow)

theorem exists_leadsTo_of_follow? {target version : ModelVersion} {fuel : Nat}
    {trees : List DescriptionTree}
    (h : follow? (hops.map stepOf) target fuel version = .ok trees) :
    ∃ path, LeadsTo hops version target path ∧
      trees = path.map fun hop => hop.resource.describe := by
  induction fuel using Nat.strongRecOn generalizing version trees with
  | ind fuel ih =>
      rcases follow?_cases hops target fuel version with
        ⟨rfl, hend⟩ | ⟨hop, hmem, hsource, less, rfl, hmore⟩ | hbroken
      · rw [hend] at h
        cases h
        exact ⟨[], LeadsTo.here version, rfl⟩
      · rw [hmore] at h
        rcases Except.map_eq_ok h with ⟨later, hlater, rfl⟩
        rcases ih less (Nat.lt_succ_self less) hlater with ⟨path, hpath, rfl⟩
        exact ⟨hop :: path, LeadsTo.hop hmem hsource hpath, rfl⟩
      · rw [hbroken] at h
        cases h

theorem exists_of_follow?_eq_error {target version : ModelVersion} {fuel : Nat}
    {e : DescriptionError} (h : follow? (hops.map stepOf) target fuel version = .error e) :
    ∃ reached, e = .brokenChain reached target := by
  induction fuel using Nat.strongRecOn generalizing version with
  | ind fuel ih =>
      rcases follow?_cases hops target fuel version with
        ⟨_, hend⟩ | ⟨hop, _, _, less, rfl, hmore⟩ | hbroken
      · rw [hend] at h
        cases h
      · cases hlater : follow? (hops.map stepOf) target less hop.target with
        | ok trees =>
            rw [hmore, hlater] at h
            cases h
        | error e' =>
            rw [hmore, hlater] at h
            cases h
            exact ih less (Nat.lt_succ_self less) hlater
      · rw [hbroken] at h
        cases h
        exact ⟨version, rfl⟩

/-- Where hops lead to the target, the walk goes there. -/
theorem follow?_of_leadsTo (hordered : hops.Pairwise Before) (hdescends : Descends hops)
    {target version : ModelVersion} {path : List HopDeclarations}
    (h : LeadsTo hops version target path) {fuel : Nat} (hfuel : below hops version ≤ fuel) :
    follow? (hops.map stepOf) target fuel version =
      .ok (path.map fun hop => hop.resource.describe) := by
  induction h generalizing fuel with
  | here version => exact follow?_self _ _ _
  | @hop version target hop path hmem hsource hrest ih =>
      subst hsource
      have hend : hop.source ≠ target := by
        rintro rfl
        exact hdescends.not_leadsTo_source hmem _ hrest
      have hbelow : below hops hop.target < fuel :=
        Nat.lt_of_lt_of_le (hdescends.below_lt hmem) hfuel
      cases fuel with
      | zero => cases hbelow
      | succ fuel =>
          rw [follow?_succ _ hend (stepFrom?_of_mem (hdescends.nodup hordered) hmem)]
          -- a version from which hops lead to the target is not below it
          rw [hrest.not_older hdescends, ih (Nat.le_of_lt_succ hbelow)]
          rfl

end

/-!
# The descriptions to all targets
-/

section

variable {chain : ChainDeclarations} {targets : List ModelVersion}

theorem describe_of_descends (targets : List ModelVersion)
    (hordered : chain.hops.Pairwise Before) (hdescends : Descends chain.hops) :
    chain.describe targets = targets.mapM fun target =>
      (follow? (chain.hops.map stepOf) target chain.hops.length chain.current).map
        fun trees => (target, trees) := by
  rw [describe, steps_of_descends chain.subsystem hordered hdescends, ← List.length_map stepOf]
  rfl

theorem describe_of_not_descends (targets : List ModelVersion) (hnot : ¬ Descends chain.hops) :
    ∃ message, chain.describe targets = .error (.invalid message) := by
  rcases exists_steps_of_not_descends chain.subsystem hnot with ⟨message, hsteps⟩
  exact ⟨message, by rw [describe, hsteps]; rfl⟩

theorem follow?_eq_ok_iff (hordered : chain.hops.Pairwise Before) (hdescends : Descends chain.hops)
    {target : ModelVersion} {trees : List DescriptionTree} :
    follow? (chain.hops.map stepOf) target chain.hops.length chain.current = .ok trees ↔
      ∃ path, LeadsTo chain.hops chain.current target path ∧
        trees = path.map fun hop => hop.resource.describe := by
  refine ⟨exists_leadsTo_of_follow?, ?_⟩
  rintro ⟨path, hpath, rfl⟩
  exact follow?_of_leadsTo hordered hdescends hpath (below_le_length _ _)

/-- All targets are described exactly when the hops descend and lead to each of them. -/
theorem describe_eq_ok_iff (hordered : chain.hops.Pairwise Before)
    {chains : List (ModelVersion × List DescriptionTree)} :
    chain.describe targets = .ok chains ↔
      Descends chain.hops ∧ List.Forall₂ (fun target entry =>
        ∃ path, LeadsTo chain.hops chain.current target path ∧
          entry = (target, path.map fun hop => hop.resource.describe)) targets chains := by
  by_cases hdescends : Descends chain.hops
  · rw [describe_of_descends targets hordered hdescends, Except.mapM_eq_ok_iff,
      and_iff_right hdescends]
    have hone : forall target (entry : ModelVersion × List DescriptionTree),
        (follow? (chain.hops.map stepOf) target chain.hops.length chain.current).map
          (fun trees => (target, trees)) = .ok entry ↔
        ∃ path, LeadsTo chain.hops chain.current target path ∧
          entry = (target, path.map fun hop => hop.resource.describe) := by
      intro target entry
      constructor
      · intro h
        rcases Except.map_eq_ok h with ⟨trees, htrees, rfl⟩
        rcases (follow?_eq_ok_iff hordered hdescends).mp htrees with ⟨path, hpath, rfl⟩
        exact ⟨path, hpath, rfl⟩
      · rintro ⟨path, hpath, rfl⟩
        rw [(follow?_eq_ok_iff hordered hdescends).mpr ⟨path, hpath, rfl⟩]
        rfl
    simp only [hone]
  · rcases describe_of_not_descends targets hdescends with ⟨message, hinvalid⟩
    rw [hinvalid]
    constructor
    · intro h
      cases h
    · exact fun h => absurd h.1 hdescends

/-- Without a way to a target, a chain of descending hops breaks, and the error names such a
target. -/
theorem exists_unreached_of_describe (hordered : chain.hops.Pairwise Before)
    (hdescends : Descends chain.hops) {e : DescriptionError}
    (h : chain.describe targets = .error e) :
    ∃ target ∈ targets, (∀ path, ¬ LeadsTo chain.hops chain.current target path) ∧
      ∃ reached, e = .brokenChain reached target := by
  rw [describe_of_descends targets hordered hdescends] at h
  rcases Except.exists_of_mapM_eq_error h with ⟨target, hmem, herror⟩
  cases hfollow : follow? (chain.hops.map stepOf) target chain.hops.length chain.current with
  | ok trees =>
      rw [hfollow] at herror
      cases herror
  | error e' =>
      rw [hfollow] at herror
      cases herror
      refine ⟨target, hmem, ?_, exists_of_follow?_eq_error hfollow⟩
      intro path hpath
      rw [(follow?_eq_ok_iff hordered hdescends).mpr ⟨path, hpath, rfl⟩] at hfollow
      cases hfollow

/-- Hops that do not descend are the only ones that are refused. -/
theorem describe_eq_invalid_iff (hordered : chain.hops.Pairwise Before) :
    (∃ message, chain.describe targets = .error (.invalid message)) ↔ ¬ Descends chain.hops := by
  constructor
  · rintro ⟨message, hinvalid⟩ hdescends
    rcases exists_unreached_of_describe hordered hdescends hinvalid with ⟨_, _, _, _, he⟩
    cases he
  · exact describe_of_not_descends targets

/-- A chain of descending hops breaks exactly when they do not lead to all targets. -/
theorem describe_eq_brokenChain_iff (hordered : chain.hops.Pairwise Before) :
    (∃ reached target, chain.describe targets = .error (.brokenChain reached target)) ↔
      Descends chain.hops ∧
        ∃ target ∈ targets, ∀ path, ¬ LeadsTo chain.hops chain.current target path := by
  constructor
  · rintro ⟨reached, target, hbroken⟩
    by_cases hdescends : Descends chain.hops
    · rcases exists_unreached_of_describe hordered hdescends hbroken with
        ⟨unreached, hmem, hnone, _⟩
      exact ⟨hdescends, unreached, hmem, hnone⟩
    · rcases describe_of_not_descends targets hdescends with ⟨message, hinvalid⟩
      rw [hinvalid] at hbroken
      cases hbroken
  · rintro ⟨hdescends, unreached, hmem, hnone⟩
    cases h : chain.describe targets with
    | ok chains =>
        rcases List.exists_of_mem_of_forall₂ ((describe_eq_ok_iff hordered).mp h).2 hmem with
          ⟨_, _, path, hpath, _⟩
        exact absurd hpath (hnone path)
    | error e =>
        rcases exists_unreached_of_describe hordered hdescends h with ⟨target, _, _, reached, rfl⟩
        exact ⟨reached, target, rfl⟩

/-- The only hops on a way from the current version of a chain to a target, none of which there are
for the current version itself. -/
structure IsWayTo (chain : ChainDeclarations) (target : ModelVersion)
    (path : List HopDeclarations) : Prop where
  leads : LeadsTo chain.hops chain.current target path
  only : forall other, LeadsTo chain.hops chain.current target other -> other = path
  eq_nil_iff : path = [] ↔ target = chain.current

theorem LeadsTo.isWayTo (hordered : chain.hops.Pairwise Before) (hdescends : Descends chain.hops)
    {target : ModelVersion} {path : List HopDeclarations}
    (h : LeadsTo chain.hops chain.current target path) : chain.IsWayTo target path := by
  refine ⟨h, fun other hother => hother.unique hordered hdescends h, ?_⟩
  constructor
  · rintro rfl
    cases h
    rfl
  · rintro rfl
    exact h.unique hordered hdescends (LeadsTo.here _)

theorem exists_describe_eq_ok (hordered : chain.hops.Pairwise Before)
    (hdescends : Descends chain.hops)
    (hreached : ∀ target ∈ targets, ∃ path, LeadsTo chain.hops chain.current target path) :
    ∃ chains, chain.describe targets = .ok chains := by
  cases h : chain.describe targets with
  | ok chains => exact ⟨chains, rfl⟩
  | error e =>
      rcases exists_unreached_of_describe hordered hdescends h with ⟨target, hmem, hnone, _⟩
      rcases hreached target hmem with ⟨path, hpath⟩
      exact absurd hpath (hnone path)

/-- Whether the trees for each of the targets are those of the hops on the only way to it. -/
def ListsWays (chain : ChainDeclarations) (targets : List ModelVersion)
    (chains : List (ModelVersion × List DescriptionTree)) : Prop :=
  List.Forall₂ (fun target entry => ∃ path, chain.IsWayTo target path ∧
    entry = (target, path.map fun hop => hop.resource.describe)) targets chains

theorem listsWays_of_describe (hordered : chain.hops.Pairwise Before)
    {chains : List (ModelVersion × List DescriptionTree)}
    (h : chain.describe targets = .ok chains) : chain.ListsWays targets chains := by
  rcases (describe_eq_ok_iff hordered).mp h with ⟨hdescends, hall⟩
  apply hall.imp
  rintro target entry ⟨path, hpath, heq⟩
  exact ⟨path, hpath.isWayTo hordered hdescends, heq⟩

theorem ListsWays.map_fst {chains : List (ModelVersion × List DescriptionTree)}
    (h : chain.ListsWays targets chains) : chains.map Prod.fst = targets := by
  have hsame : List.Forall₂ Eq targets (chains.map Prod.fst) := by
    rw [List.forall₂_map_right_iff]
    apply h.imp
    rintro target entry ⟨path, _, rfl⟩
    rfl
  rw [List.forall₂_eq_eq_eq] at hsame
  exact hsame.symm

/-- All entries about a target have the trees of the only way to it. -/
theorem ListsWays.snd_eq {chains : List (ModelVersion × List DescriptionTree)}
    (h : chain.ListsWays targets chains) {target : ModelVersion} {path : List HopDeclarations}
    (hway : chain.IsWayTo target path) :
    ∀ entry ∈ chains, entry.1 = target -> entry.2 = path.map fun hop => hop.resource.describe := by
  intro entry hentry htarget
  rcases List.exists_of_mem_of_forall₂ h.flip hentry with ⟨_, _, other, hother, rfl⟩
  subst htarget
  rw [hway.only other hother.leads]

theorem walks_of_steps (hordered : chain.hops.Pairwise Before) {found : List Step}
    (hsteps : steps chain.subsystem chain.hops [] = .ok found) (target : ModelVersion) :
    Walks found target chain.current (follow? found target found.length chain.current) := by
  by_cases hdescends : Descends chain.hops
  · rw [steps_of_descends chain.subsystem hordered hdescends] at hsteps
    cases hsteps
    rw [List.length_map]
    exact hdescends.walks_follow? target (below_le_length _ _)
  · rcases exists_steps_of_not_descends chain.subsystem hdescends with ⟨message, hinvalid⟩
    rw [hinvalid] at hsteps
    cases hsteps

end

end ChainDeclarations
end MixedDomain
