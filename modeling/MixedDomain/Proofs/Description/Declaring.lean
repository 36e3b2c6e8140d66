import MixedDomain.Description.Declarations

/-!
# What is declared everywhere

## Trees of declarations

Declarations about a resource hold those about the resources below it.  A property
holds everywhere in them when it holds of what is declared at each resource.

## From declarations to descriptions

Every description in the tree of declarations comes from what is declared at one
resource.
-/

namespace MixedDomain
namespace ResourceDeclarations

variable {p : ResourceDeclarations -> Prop} {d : ResourceDeclarations}

/-- Whether a property holds of what is declared about a resource and about all those below it. -/
inductive Everywhere (p : ResourceDeclarations -> Prop) : ResourceDeclarations -> Prop where
  | intro {d : ResourceDeclarations} :
      p d -> (∀ child ∈ d.children, Everywhere p child) -> Everywhere p d

theorem Everywhere.own (h : d.Everywhere p) : p d := by
  cases h
  assumption

theorem Everywhere.of_mem (h : d.Everywhere p) : ∀ child ∈ d.children, child.Everywhere p := by
  cases h
  assumption

theorem Everywhere.addChild (h : d.Everywhere p) {child : ResourceDeclarations}
    (hown : p (d.addChild child)) (hchild : child.Everywhere p) :
    (d.addChild child).Everywhere p := by
  refine .intro hown ?_
  exact List.forall_mem_append.mpr ⟨h.of_mem, List.forall_mem_singleton.mpr hchild⟩

/-!
# Trees of descriptions
-/

theorem describeAll_eq_map (ds : List ResourceDeclarations) : describeAll ds = ds.map describe := by
  induction ds with
  | nil => rfl
  | cons d rest ih =>
      simp [describeAll, ih]

theorem mem_flattenAll {parent : Address} {trees : List DescriptionTree}
    {node : Address × ResourceDescription} (h : node ∈ DescriptionTree.flattenAll parent trees) :
    ∃ tree ∈ trees, node ∈ tree.flatten parent := by
  induction trees with
  | nil =>
      cases h
  | cons tree rest ih =>
      rcases List.mem_append.mp h with hhere | hrest
      · exact ⟨tree, List.mem_cons_self, hhere⟩
      · rcases ih hrest with ⟨other, hother, hnode⟩
        exact ⟨other, List.mem_cons_of_mem _ hother, hnode⟩

theorem exists_of_mem_flatten (h : d.Everywhere p) (parent : Address) :
    ∀ node ∈ d.describe.flatten parent,
      exists own : ResourceDeclarations, p own ∧ node.2 = own.describe.description := by
  induction h generalizing parent with
  | @intro d hown _ ih =>
      rcases d with ⟨element, path, withholding, redirection?, attributes, overrides, discarded,
        rejected, placement?, children⟩
      intro node hnode
      rcases List.mem_cons.mp hnode with rfl | hbelow
      · exact ⟨_, hown, rfl⟩
      · rw [describeAll_eq_map] at hbelow
        rcases mem_flattenAll hbelow with ⟨tree, htree, hnode⟩
        rcases List.mem_map.mp htree with ⟨child, hchild, rfl⟩
        exact ih child hchild _ node hnode

end ResourceDeclarations
end MixedDomain
