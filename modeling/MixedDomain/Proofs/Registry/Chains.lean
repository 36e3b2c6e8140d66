import MixedDomain.Proofs.Description.Chaining
import MixedDomain.Proofs.Entries
import MixedDomain.Registry

/-!
# Registering chains

## Hops by version

Hops that are registered are found under their subsystem and version, and no others
change.  A chain is described completely before the first of its hops is registered,
so an error leaves the registry as it was.
-/

namespace MixedDomain

namespace Registry

theorem find?_version_cons (v other : ModelVersion) (hops : List Hop) (rest : VersionHops) :
    (((v, hops) :: rest).find? fun entry => entry.1 == other).map Prod.snd =
      if v = other then some hops else (rest.find? fun entry => entry.1 == other).map Prod.snd := by
  by_cases h : v = other <;> simp [h]

theorem find?_insertVersion (version other : ModelVersion) (hops : List Hop) (known : VersionHops) :
    ((insertVersion version hops known).find? fun entry => entry.1 == other).map Prod.snd =
      if version = other then some hops
      else (known.find? fun entry => entry.1 == other).map Prod.snd := by
  induction known with
  | nil => exact find?_version_cons version other hops []
  | cons entry rest ih =>
      obtain ⟨v, old⟩ := entry
      simp only [insertVersion]
      split
      case h_1 => exact find?_version_cons version other hops _
      case h_2 heq =>
          rw [ModelVersion.compare_eq_eq_iff] at heq
          subst heq
          rw [find?_version_cons, find?_version_cons]
          split <;> rfl
      case h_3 hgt =>
          have hne : version ≠ v := by
            rintro rfl
            rw [(ModelVersion.compare_eq_eq_iff version version).mpr rfl] at hgt
            cases hgt
          rw [find?_version_cons, find?_version_cons, ih]
          by_cases hv : v = other
          · subst hv
            rw [if_pos rfl, if_pos rfl, if_neg hne]
          · rw [if_neg hv, if_neg hv]

/-- Hops that are registered are there, and what there is otherwise stays. -/
theorem hopsTo?_registerHops (r : Registry) (subsystem other : String)
    (version version' : ModelVersion) (hops : List Hop) :
    (r.registerHops subsystem version hops).hopsTo? other version' =
      if subsystem = other ∧ version = version' then some hops else r.hopsTo? other version' := by
  rw [hopsTo?, versions, registerHops, Entries.get?_insertSorted]
  by_cases hname : subsystem = other
  · subst hname
    rw [if_pos rfl]
    exact (find?_insertVersion version version' hops _).trans (by simp [hopsTo?])
  · rw [if_neg hname, if_neg (fun h => hname h.1)]
    rfl

/-!
# All hops of a chain
-/

theorem hopsTo?_registerTrees (r : Registry) (subsystem other : String) (version : ModelVersion)
    (entry : ModelVersion × List DescriptionTree) :
    (registerTrees subsystem r entry).hopsTo? other version =
      if subsystem = other ∧ entry.1 = version ∧ entry.2 ≠ [] then some (entry.2.map Hop.ofTree)
      else r.hopsTo? other version := by
  rw [registerTrees]
  cases hempty : entry.2 with
  | nil => simp
  | cons tree trees => simpa using hopsTo?_registerHops r subsystem other entry.1 version _

theorem hopsTo?_foldl_registerTrees (r : Registry) (subsystem other : String)
    {version : ModelVersion} {trees : List DescriptionTree}
    {chains : List (ModelVersion × List DescriptionTree)}
    (hagree : ∀ entry ∈ chains, entry.1 = version -> entry.2 = trees) :
    (chains.foldl (registerTrees subsystem) r).hopsTo? other version =
      if subsystem = other ∧ version ∈ chains.map Prod.fst ∧ trees ≠ [] then
        some (trees.map Hop.ofTree)
      else r.hopsTo? other version := by
  induction chains generalizing r with
  | nil => simp
  | cons entry rest ih =>
      rcases List.forall_mem_cons.mp hagree with ⟨hhere, hrest⟩
      rw [List.foldl_cons, ih _ hrest, hopsTo?_registerTrees]
      by_cases hversion : entry.1 = version
      · rw [hhere hversion]
        simp only [hversion, true_and, List.map_cons, List.mem_cons, true_or]
        split
        case isTrue hboth => rw [if_pos ⟨hboth.1, hboth.2.2⟩]
        case isFalse => rfl
      · simp only [hversion, false_and, and_false, if_false, List.map_cons, List.mem_cons,
          Ne.symm hversion, false_or]

/-!
# The hops to the targets
-/

def hopsOf (path : List HopDeclarations) : List Hop :=
  path.map fun hop => Hop.ofTree hop.resource.describe

section

variable {chain : ChainDeclarations} {targets : List ModelVersion}
  {chains : List (ModelVersion × List DescriptionTree)}

theorem hopsTo?_of_isWayTo (r : Registry) (hways : chain.ListsWays targets chains)
    {target : ModelVersion} (htarget : target ∈ targets) {path : List HopDeclarations}
    (hway : chain.IsWayTo target path) (hne : path ≠ []) :
    (chains.foldl (registerTrees chain.subsystem) r).hopsTo? chain.subsystem target =
      some (hopsOf path) := by
  rw [hopsTo?_foldl_registerTrees r _ _ (hways.snd_eq hway), hways.map_fst,
    if_pos ⟨rfl, htarget, by simpa using hne⟩, List.map_map]
  rfl

theorem hopsTo?_of_not_target (r : Registry) (hways : chain.ListsWays targets chains)
    {other : String} {version : ModelVersion}
    (hnot : ¬ (other = chain.subsystem ∧ version ∈ targets ∧ version ≠ chain.current)) :
    (chains.foldl (registerTrees chain.subsystem) r).hopsTo? other version =
      r.hopsTo? other version := by
  have hkeys := hways.map_fst
  by_cases hmem : version ∈ targets
  · rcases List.exists_of_mem_of_forall₂ hways hmem with ⟨_, _, path, hway, _⟩
    rw [hopsTo?_foldl_registerTrees r _ _ (hways.snd_eq hway), hkeys, if_neg]
    rintro ⟨hname, _, hne⟩
    refine hnot ⟨hname.symm, hmem, ?_⟩
    rw [Ne, ← hway.eq_nil_iff]
    simpa using hne
  · have hagree : ∀ entry ∈ chains, entry.1 = version -> entry.2 = [] := by
      rintro entry hentry rfl
      rw [← hkeys] at hmem
      exact absurd (List.mem_map_of_mem hentry) hmem
    rw [hopsTo?_foldl_registerTrees r _ _ hagree, if_neg]
    exact fun h => h.2.2 rfl

end

/-!
# Chains of versions
-/

open ChainDeclarations in
/-- For every subsystem, every sequence of declared hops, every list of targets and every registry.
The hops of the chain are those declared last between their versions.  They are refused when one
does not lead to an older version, or two that start together end apart; otherwise the chain breaks
when the hops do not lead to some target; and otherwise each target is described by the consecutive
hops on the only way to it.  Every walk ends.  An error leaves the registry as it is; without one the
hops to the targets, except to the current version, are replaced, and no others. -/
theorem registerChained_ofHops (subsystem : String) (current : ModelVersion)
    (declared : List HopDeclarations) (targets : List ModelVersion) (r : Registry) :
    let chain := ChainDeclarations.ofHops subsystem current declared
    (∀ hop, hop ∈ chain.hops ↔
      declared.reverse.find? (isBetween hop.source hop.target) = some hop) ∧
    ((∃ message, chain.describe targets = .error (.invalid message)) ↔
      (∃ hop ∈ chain.hops, hop.target.older hop.source = false) ∨
      ∃ hop ∈ chain.hops, ∃ other ∈ chain.hops,
        hop.source = other.source ∧ hop.target ≠ other.target) ∧
    ((∃ reached target, chain.describe targets = .error (.brokenChain reached target)) ↔
      Descends chain.hops ∧
        ∃ target ∈ targets, ∀ path, ¬ LeadsTo chain.hops current target path) ∧
    (Descends chain.hops ->
      (∀ target ∈ targets, ∃ path, LeadsTo chain.hops current target path) ->
      ∃ chains r', chain.describe targets = .ok chains ∧ chain.ListsWays targets chains ∧
        (registerChained chain targets).run.run r = (.ok (), r') ∧
        (∀ target ∈ targets, target ≠ current -> ∃ path, path ≠ [] ∧ chain.IsWayTo target path ∧
          r'.hopsTo? subsystem target = some (hopsOf path)) ∧
        forall other version, ¬ (other = subsystem ∧ version ∈ targets ∧ version ≠ current) ->
          r'.hopsTo? other version = r.hopsTo? other version) ∧
    (forall e, chain.describe targets = .error e ->
      (registerChained chain targets).run.run r = (.error e, r)) ∧
    forall found, steps chain.subsystem chain.hops [] = .ok found -> forall target,
      Walks found target current (follow? found target found.length current) := by
  intro chain
  have hordered := pairwise_hops_ofHops subsystem current declared
  have hcurrent : chain.current = current := current_ofHops subsystem current declared
  have hsubsystem : chain.subsystem = subsystem := subsystem_ofHops subsystem current declared
  refine ⟨mem_hops_ofHops_iff subsystem current declared,
    (describe_eq_invalid_iff hordered).trans not_descends_iff, ?_, ?_, ?_, ?_⟩
  · rw [← hcurrent]
    exact describe_eq_brokenChain_iff hordered
  · rw [← hcurrent, ← hsubsystem]
    intro hdescends hreached
    rcases exists_describe_eq_ok hordered hdescends hreached with ⟨chains, hchains⟩
    have hways := listsWays_of_describe hordered hchains
    refine ⟨chains, _, hchains, hways, by rw [run_registerChained, hchains], ?_, ?_⟩
    · intro target htarget hne
      rcases List.exists_of_mem_of_forall₂ hways htarget with ⟨_, _, path, hway, _⟩
      have hpath : path ≠ [] := fun hnil => hne (hway.eq_nil_iff.mp hnil)
      exact ⟨path, hpath, hway, hopsTo?_of_isWayTo r hways htarget hway hpath⟩
    · intro other version hnot
      exact hopsTo?_of_not_target r hways hnot
  · intro e he
    rw [run_registerChained, he]
  · intro found hsteps target
    rw [← hcurrent]
    exact walks_of_steps hordered hsteps target

namespace MailVersions

def declared : List HopDeclarations :=
  [⟨⟨2, 0, 0⟩, ⟨1, 0, 0⟩, ResourceDeclarations.ofSubsystem "mail"⟩,
    ⟨⟨3, 0, 0⟩, ⟨2, 0, 0⟩, ResourceDeclarations.ofSubsystem "mail"⟩]

def chain : ChainDeclarations :=
  ChainDeclarations.ofHops "mail" ⟨3, 0, 0⟩ declared

end MailVersions

open ChainDeclarations MailVersions in
theorem registerChained_mail :
    ∃ chains r' path, chain.describe [⟨1, 0, 0⟩] = .ok chains ∧
      (registerChained chain [⟨1, 0, 0⟩]).run.run Registry.empty = (.ok (), r') ∧
      path.length = 2 ∧ r'.hopsTo? "mail" ⟨1, 0, 0⟩ = some (hopsOf path) := by
  have hhops : chain.hops = declared := by
    rfl
  have hdescends : Descends chain.hops := by
    rw [hhops]
    exact ⟨by simp [declared]; decide, by simp [declared]⟩
  have hleads : LeadsTo chain.hops ⟨3, 0, 0⟩ ⟨1, 0, 0⟩ declared.reverse := by
    rw [hhops]
    refine LeadsTo.hop (by simp [declared]) rfl ?_
    refine LeadsTo.hop (by simp [declared]) rfl ?_
    exact LeadsTo.here _
  have hreached : ∀ target ∈ [(⟨1, 0, 0⟩ : ModelVersion)],
      ∃ path, LeadsTo chain.hops ⟨3, 0, 0⟩ target path := by
    simpa using ⟨_, hleads⟩
  rcases registerChained_ofHops "mail" ⟨3, 0, 0⟩ declared [⟨1, 0, 0⟩] Registry.empty with
    ⟨_, _, _, hregisters, _, _⟩
  rcases hregisters hdescends hreached with ⟨chains, r', hchains, _, hrun, htargets, _⟩
  rcases htargets ⟨1, 0, 0⟩ List.mem_cons_self (by decide) with ⟨path, _, hway, hhops'⟩
  have hlength : path.length = 2 := by
    rw [← hway.only _ hleads]
    rfl
  exact ⟨chains, r', path, hchains, hrun, hlength, hhops'⟩

end Registry
end MixedDomain
