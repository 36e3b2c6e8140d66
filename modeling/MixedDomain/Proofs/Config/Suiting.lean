import MixedDomain.Proofs.Config.Adding
import MixedDomain.Proofs.Transformer.Succeeding

/-!
# Configurations make transformers that suit

## Declarations

What declarations make for the operation of a name is a transformer that suits this
name, and that spares the address unless an attribute is called like it.

## Configurations

Where no rule of a configuration names an attribute like the address of operations,
all transformers in all hops suit the operations that they stand for.
-/

namespace MixedDomain

/-!
# Declarations
-/

theorem OperationDeclarations.suits_transformer {o : OperationDeclarations} (hlast : o.last? = none)
    (hspares : ∀ d ∈ o.attributes.describe, d.Spares [Operation.addressKey])
    {resource : List AttributeDescription}
    (hresource : ∀ d ∈ resource, d.Spares [Operation.addressKey]) :
    (o.transformer resource).Suits o.operation := by
  unfold transformer
  cases o.withholding with
  | silent => exact .discard
  | rejectAndWarn => exact .reject none
  | never =>
      dsimp only
      rw [hlast]
      apply Transformer.Suits.rules
      split
      · exact AttributeDescription.forall_mem_merge hresource hspares
      · exact hspares

namespace ResourceDeclarations

/-- Whether no attribute that is declared about a resource is called as the address of operations,
and the rules have the last word about operations. -/
structure SparesAddress (d : ResourceDeclarations) : Prop where
  attributes : d.attributes.WellNamed [Operation.addressKey]
  overrides : ∀ o ∈ d.overrides, o.attributes.WellNamed [Operation.addressKey] ∧ o.last? = none

theorem suits_of_mem_transformers {attributes : List AttributeDescription}
    {overrides : List OperationDeclarations}
    (hattributes : ∀ d ∈ attributes, d.Spares [Operation.addressKey])
    (hoverrides : ∀ o ∈ overrides,
      o.attributes.WellNamed [Operation.addressKey] ∧ o.last? = none)
    (discarded rejected : List String) :
    ∀ entry ∈ transformers attributes overrides discarded rejected, entry.2.Suits entry.1 := by
  intro entry hentry
  have hmem := Entries.mem_ofList hentry
  simp only [List.mem_append, List.mem_map] at hmem
  rcases hmem with ((⟨name, _, rfl⟩ | ⟨name, _, rfl⟩) | ⟨name, _, rfl⟩) | ⟨o, ho, rfl⟩
  · exact .rules none hattributes
  · exact .discard
  · exact .reject none
  · rcases hoverrides o ho with ⟨hnamed, hlast⟩
    exact o.suits_transformer hlast hnamed.spares_describe hattributes

theorem SparesAddress.suits_describe {d : ResourceDeclarations} (h : d.SparesAddress) :
    ∀ entry ∈ d.describe.description.operations, entry.2.Suits entry.1 := by
  rcases d with ⟨element, path, withholding, redirection?, attributes, overrides, discarded,
    rejected, placement?, children⟩
  exact suits_of_mem_transformers h.attributes.spares_describe h.overrides discarded rejected

end ResourceDeclarations

/-!
# Configurations
-/

namespace Config

/-- Whether no attribute that rules about a resource or its operations name has a reserved name. -/
structure ResourceRules.Spares (reserved : List String) (rules : ResourceRules) : Prop where
  attributes : ∀ rule ∈ rules.attributes, rule.Spares reserved
  operations : ∀ operation ∈ rules.operations, ∀ rule ∈ operation.attributes, rule.Spares reserved

def Spares (reserved : List String) (config : Config) : Prop :=
  ∀ rules ∈ config.resourceRules, rules.Spares reserved

theorem keptByRules_sparesAddress :
    KeptByRules (ResourceRules.Spares [Operation.addressKey])
      ResourceDeclarations.SparesAddress := by
  constructor
  case start =>
    intro parent e w redirection? _
    constructor
    · exact AttributeDeclarations.wellNamed_empty _ _
    · exact nofun
  case addChild =>
    intro d child hd
    exact ⟨hd.attributes, hd.overrides⟩
  case own =>
    intro attributes discarded rejected operations children newAttributes d d' hrules hd h
    rcases ResourceRules.declareOwn_eq_ok h with ⟨declared, overrides, hdeclared, hoverrides, rfl⟩
    constructor
    · exact AttributeRule.wellNamed_declareAll hrules.attributes hd.attributes hdeclared
    · refine List.forall_mem_append.mpr ⟨hd.overrides, ?_⟩
      intro o ho
      rcases hoverrides o ho with ⟨rule, hrule, path, own, hown, rfl⟩
      constructor
      · exact AttributeRule.wellNamed_declareAll (hrules.operations rule hrule)
          (AttributeDeclarations.wellNamed_empty _ path) hown
      · rfl

end Config

def Hop.SuitsOperations (h : Hop) : Prop :=
  forall b d, h.description? b = some d -> ∀ entry ∈ d.operations, entry.2.Suits entry.1

theorem Hop.suitsOperations_ofTree {d : ResourceDeclarations}
    (h : d.Everywhere ResourceDeclarations.SparesAddress) :
    (Hop.ofTree d.describe).SuitsOperations := by
  intro b found hfound
  refine of_description?_ofTree (p := fun d => ∀ entry ∈ d.operations, entry.2.Suits entry.1)
    ?_ hfound
  intro node hnode
  rcases ResourceDeclarations.exists_of_mem_flatten h Address.root node hnode with ⟨own, hown, heq⟩
  rw [heq]
  exact hown.suits_describe

theorem Config.suitsOperations_registry {config : Config}
    (hspares : config.Spares [Operation.addressKey]) {r : Registry} (h : config.registry = .ok r) :
    r.Everywhere fun hops => ∀ hop ∈ hops, hop.SuitsOperations := by
  intro entry hentry version hversion hop hhop
  rcases everywhere_registry keptByRules_sparesAddress hspares h entry hentry version hversion hop
    hhop with ⟨d, hd, rfl⟩
  exact Hop.suitsOperations_ofTree hd

end MixedDomain
