import MixedDomain.Proofs.Config.Declaring
import MixedDomain.Proofs.Hop.BuiltIn

/-!
# Built-in configurations

## Declaring

Every rule of a configuration keeps the declarations built-in, because the checks,
conversions and placements that it adds are.

## Registries

Hence all that a configuration registers is built-in, for single versions and
for chains.
-/

namespace MixedDomain

namespace Config

/-!
# Attributes
-/

theorem AttributeRule.isBuiltIn_of_mem_discardChecks (rule : AttributeRule) :
    ∀ check ∈ rule.discardChecks, check.IsBuiltIn := by
  intro check hcheck
  rcases List.mem_append.mp hcheck with hchoice | hvalues
  · simp only [Option.mem_toList, Option.map_eq_some_iff] at hchoice
    rcases hchoice with ⟨choice, _, rfl⟩
    cases choice <;> exact trivial
  · split at hvalues
    · cases hvalues
    · cases List.mem_singleton.mp hvalues
      exact trivial

theorem AttributeRule.isBuiltIn_of_mem_rejectChecks (rule : AttributeRule) :
    ∀ check ∈ rule.rejectChecks, check.IsBuiltIn := by
  intro check hcheck
  rcases List.mem_append.mp hcheck with hchoice | hvalues
  · rcases List.mem_map.mp hchoice with ⟨choice, _, rfl⟩
    cases choice
    · exact .defined
    · exact .undefined
    · exact .expressions
  · split at hvalues
    · cases hvalues
    · cases List.mem_singleton.mp hvalues
      exact .values _

theorem AttributeRule.isBuiltIn_of_mem_conversions (rule : AttributeRule) :
    ∀ conversion ∈ rule.conversions, conversion.IsBuiltIn := by
  intro conversion hconversion
  rcases List.mem_append.mp hconversion with hdefault | hfixed
  · split at hdefault
    · cases List.mem_singleton.mp hdefault
      exact trivial
    · cases hdefault
  · simp only [Option.mem_toList, Option.map_eq_some_iff] at hfixed
    rcases hfixed with ⟨value, _, rfl⟩
    exact trivial

theorem AttributeRule.isBuiltIn_declare (rule : AttributeRule) {ds ds' : AttributeDeclarations}
    (hds : ds.IsBuiltIn) (h : rule.declare ds = .ok ds') : ds'.IsBuiltIn := by
  unfold declare at h
  extract_lets discarding rejecting converting at h
  have hdiscarding : discarding.IsBuiltIn :=
    List.foldlRecOn _ _ hds fun _ hd check hcheck =>
      AttributeDeclarations.isBuiltIn_discard hd
        (rule.isBuiltIn_of_mem_discardChecks check hcheck) _
  have hrejecting : rejecting.IsBuiltIn :=
    List.foldlRecOn _ _ hdiscarding fun _ hd check hcheck =>
      AttributeDeclarations.isBuiltIn_reject hd (rule.isBuiltIn_of_mem_rejectChecks check hcheck) _
  have hconverting : converting.IsBuiltIn :=
    List.foldlRecOn _ _ hrejecting fun _ hd conversion hconversion =>
      AttributeDeclarations.isBuiltIn_convert hd
        (rule.isBuiltIn_of_mem_conversions conversion hconversion) _
  unfold declareName at h
  split at h
  · rw [← Except.ok.inj h]
    exact hconverting
  · exact AttributeDeclarations.isBuiltIn_rename hconverting h
  · cases h

theorem AttributeRule.isBuiltIn_declareAll (rules : List AttributeRule)
    {ds ds' : AttributeDeclarations} (hds : ds.IsBuiltIn)
    (h : declareAll rules ds = .ok ds') : ds'.IsBuiltIn :=
  Except.foldlM_keeps (fun rule _ _ _ hd hdeclare => rule.isBuiltIn_declare hd hdeclare) hds h

/-!
# Resources and registries
-/

theorem OperationRule.Declares.isBuiltIn {rule : OperationRule} {o : OperationDeclarations}
    (h : rule.Declares o) : o.IsBuiltIn := by
  rcases h with ⟨path, attributes, hdeclare, rfl⟩
  constructor
  · exact AttributeRule.isBuiltIn_declareAll _ (AttributeDeclarations.isBuiltIn_empty _) hdeclare
  · exact nofun

theorem isBuiltIn_of_placementOf? (newAttributes : List String) :
    ∀ placement ∈ placementOf? newAttributes, placement.IsBuiltIn := by
  intro placement hplacement
  unfold placementOf? at hplacement
  split at hplacement
  · cases hplacement
  · cases hplacement
    exact trivial

theorem keptByRules_ownIsBuiltIn :
    KeptByRules (fun _ => True) ResourceDeclarations.OwnIsBuiltIn where
  start := fun parent e w _ h => ResourceDeclarations.ownIsBuiltIn_start parent e w h
  addChild := fun _ hd =>
    ⟨hd.withholding, hd.redirection, hd.attributes, hd.overrides, hd.placement⟩
  own := by
    intro attributes _ _ _ _ newAttributes d d' _ hd h
    rcases ResourceRules.declareOwn_eq_ok h with ⟨declared, overrides, hdeclared, hoverrides, rfl⟩
    refine ⟨hd.withholding, hd.redirection, ?_, ?_, ?_⟩
    · exact AttributeRule.isBuiltIn_declareAll attributes hd.attributes hdeclared
    · refine List.forall_mem_append.mpr ⟨hd.overrides, ?_⟩
      intro o ho
      rcases hoverrides o ho with ⟨rule, _, hdeclares⟩
      exact hdeclares.isBuiltIn
    · intro placement hplacement
      rcases Option.or_eq_some_iff.mp hplacement with hnew | ⟨_, hold⟩
      · exact isBuiltIn_of_placementOf? newAttributes placement hnew
      · exact hd.placement placement hold

theorem isBuiltIn_registry {config : Config} {r : Registry} (h : config.registry = .ok r) :
    r.IsBuiltIn := by
  intro entry hentry version hversion hop hhop
  rcases everywhere_registry keptByRules_ownIsBuiltIn (fun _ _ => trivial) h entry hentry version
    hversion hop hhop with ⟨d, hd, rfl⟩
  exact Hop.isBuiltIn_ofTree hd

end Config
end MixedDomain
