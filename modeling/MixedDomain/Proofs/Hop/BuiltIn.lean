import MixedDomain.Proofs.Description.BuiltIn
import MixedDomain.Proofs.Hop.Describing

/-!
# Built-in hops

## Hops

A hop is built-in when its trie holds nothing at the root and a built-in
description at every node below.

## Registries

A registry is built-in when all the hops in it are.
-/

namespace MixedDomain

/-- Whether a hop is one that configurations can declare. -/
structure Hop.IsBuiltIn (h : Hop) : Prop where
  root : h.descriptions.here? = none
  below : h.descriptions.Filled ResourceDescription.IsBuiltIn

theorem Hop.isBuiltIn_ofTree {d : ResourceDeclarations}
    (h : d.Everywhere ResourceDeclarations.OwnIsBuiltIn) : (Hop.ofTree d.describe).IsBuiltIn :=
  ⟨here?_ofTree d.describe,
    filled_ofTree (ResourceDeclarations.isBuiltIn_of_mem_flatten h Address.root)⟩

namespace Registry

def IsBuiltIn (r : Registry) : Prop :=
  ∀ entry ∈ r.subsystems, ∀ version ∈ entry.2, ∀ h ∈ version.2, h.IsBuiltIn

variable {r : Registry}

theorem IsBuiltIn.everywhere (h : r.IsBuiltIn) :
    r.Everywhere fun hops => ∀ hop ∈ hops, hop.IsBuiltIn :=
  h

theorem IsBuiltIn.of_holds (h : r.IsBuiltIn) {hop : Hop} (hhop : r.Holds hop) : hop.IsBuiltIn := by
  rcases hhop with ⟨subsystem, version, hops, hhops, hmem⟩
  exact h.everywhere.of_hopsTo? hhops hop hmem

theorem IsBuiltIn.of_hops? (h : r.IsBuiltIn) {t : Target} {a : Address} {hops : List Hop}
    (hhops : r.hops? t a = some hops) : ∀ hop ∈ hops, hop.IsBuiltIn := by
  rcases hopsTo?_of_hops? hhops with ⟨subsystem, version, hfound⟩
  exact h.everywhere.of_hopsTo? hfound

end Registry
end MixedDomain
