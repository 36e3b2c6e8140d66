import MixedDomain.Proofs.Address.Trie
import MixedDomain.Proofs.Entries
import MixedDomain.Registry

/-!
# What hops and registries hold

## Hops

Every description in a tree is stored right below its parent.  Hence the hop of a
tree has no gaps, and what holds of all descriptions in the tree holds of those that
the hop finds.

## Registries

What holds of all hops that are registered holds of those that the registry finds.
-/

namespace MixedDomain

/-!
# Trees of descriptions
-/

namespace DescriptionTree

variable {p : ResourceDescription -> Prop}

mutual

theorem ne_nil_of_mem_flatten (parent : Address) : (tree : DescriptionTree) ->
    ∀ node ∈ tree.flatten parent, node.1 ≠ []
  | .node description children, entry, hentry => by
      rcases List.mem_cons.mp hentry with rfl | hbelow
      · simp [Address.child]
      · exact ne_nil_of_mem_flattenAll _ children entry hbelow

theorem ne_nil_of_mem_flattenAll (parent : Address) : (trees : List DescriptionTree) ->
    ∀ node ∈ flattenAll parent trees, node.1 ≠ []
  | [], _, hentry => nomatch hentry
  | tree :: rest, entry, hentry => by
      rcases List.mem_append.mp hentry with hhere | hrest
      · exact ne_nil_of_mem_flatten parent tree entry hhere
      · exact ne_nil_of_mem_flattenAll parent rest entry hrest

end

mutual

theorem filled_insertNodes_flatten (parent : Address) : (tree : DescriptionTree) ->
    forall {t : Trie ResourceDescription}, t.Filled p -> (t.stored? parent).isSome ->
      (∀ node ∈ tree.flatten parent, p node.2) -> (t.insertNodes (tree.flatten parent)).Filled p
  | .node description children, t, hfilled, hparent, hall => by
      have hhere : p description := hall _ List.mem_cons_self
      have hstored := Trie.isSome_stored?_modify_self (fun _ => some description)
        (parent.child description.element) t
      exact filled_insertNodes_flattenAll _ children
        (hfilled.insert_child hparent description.element hhere) hstored
        fun node hnode => hall node (List.mem_cons_of_mem _ hnode)

theorem filled_insertNodes_flattenAll (parent : Address) : (trees : List DescriptionTree) ->
    forall {t : Trie ResourceDescription}, t.Filled p -> (t.stored? parent).isSome ->
      (∀ node ∈ flattenAll parent trees, p node.2) ->
      (t.insertNodes (flattenAll parent trees)).Filled p
  | [], _, hfilled, _, _ => hfilled
  | tree :: rest, t, hfilled, hparent, hall => by
      simp only [flattenAll, Trie.insertNodes_append]
      apply filled_insertNodes_flattenAll parent rest
      · exact filled_insertNodes_flatten parent tree hfilled hparent
          fun node hnode => hall node (List.mem_append_left _ hnode)
      · exact Trie.isSome_stored?_insertNodes _ hparent
      · exact fun node hnode => hall node (List.mem_append_right _ hnode)

end

end DescriptionTree

/-!
# Hops of trees
-/

namespace Hop

variable {p : ResourceDescription -> Prop} {tree : DescriptionTree}

theorem here?_ofTree (tree : DescriptionTree) : (ofTree tree).descriptions.here? = none :=
  Trie.here?_insertNodes (DescriptionTree.ne_nil_of_mem_flatten Address.root tree) Trie.empty

theorem filled_ofTree (hall : ∀ node ∈ tree.flatten Address.root, p node.2) :
    (ofTree tree).descriptions.Filled p :=
  DescriptionTree.filled_insertNodes_flatten Address.root tree Trie.filled_empty rfl hall

theorem of_description?_ofTree (hall : ∀ node ∈ tree.flatten Address.root, p node.2) {a : Address}
    {d : ResourceDescription} (hd : (ofTree tree).description? a = some d) : p d :=
  (filled_ofTree hall).of_get? (here?_ofTree tree) hd

end Hop

/-!
# Registries
-/

namespace Registry

variable {p : List Hop -> Prop} {r : Registry}

def Holds (h : Hop) (r : Registry) : Prop :=
  exists subsystem version hops, r.hopsTo? subsystem version = some hops ∧ h ∈ hops

def Everywhere (p : List Hop -> Prop) (r : Registry) : Prop :=
  ∀ entry ∈ r.subsystems, ∀ version ∈ entry.2, p version.2

theorem Everywhere.of_mem_versions (h : r.Everywhere p) {subsystem : String} :
    ∀ version ∈ r.versions subsystem, p version.2 := by
  intro version hversion
  unfold versions at hversion
  cases hget : Entries.get? subsystem r.subsystems with
  | none =>
      rw [hget] at hversion
      cases hversion
  | some found =>
      rw [hget] at hversion
      exact h (subsystem, found) (Entries.mem_of_get? hget) version hversion

theorem Everywhere.of_hopsTo? (h : r.Everywhere p) {subsystem : String} {version : ModelVersion}
    {hops : List Hop} (hhops : r.hopsTo? subsystem version = some hops) : p hops := by
  simp only [hopsTo?, Option.map_eq_some_iff] at hhops
  rcases hhops with ⟨entry, hfind, rfl⟩
  exact h.of_mem_versions entry (List.mem_of_find?_eq_some hfind)

theorem hopsTo?_of_hops? {t : Target} {a : Address} {hops : List Hop}
    (h : r.hops? t a = some hops) : exists subsystem version,
      r.hopsTo? subsystem version = some hops := by
  simp only [hops?, Option.bind_eq_bind, Option.bind_eq_some_iff] at h
  rcases h with ⟨subsystem, _, version, _, hhops⟩
  exact ⟨subsystem, version, hhops⟩

theorem everywhere_empty : Registry.empty.Everywhere p := by
  intro entry hentry
  cases hentry

theorem mem_insertVersion {version : ModelVersion} {hops : List Hop} {versions : VersionHops}
    {entry : ModelVersion × List Hop} (h : entry ∈ insertVersion version hops versions) :
    entry = (version, hops) ∨ entry ∈ versions := by
  induction versions with
  | nil =>
      exact Or.inl (List.mem_singleton.mp h)
  | cons first rest ih =>
      simp only [insertVersion] at h
      split at h
      · exact List.mem_cons.mp h
      · rcases List.mem_cons.mp h with rfl | hrest
        · exact Or.inl rfl
        · exact Or.inr (List.mem_cons_of_mem _ hrest)
      · rcases List.mem_cons.mp h with rfl | hrest
        · exact Or.inr List.mem_cons_self
        · rcases ih hrest with rfl | hmem
          · exact Or.inl rfl
          · exact Or.inr (List.mem_cons_of_mem _ hmem)

theorem Everywhere.registerHops (h : r.Everywhere p) (subsystem : String) (version : ModelVersion)
    {hops : List Hop} (hhops : p hops) : (r.registerHops subsystem version hops).Everywhere p := by
  intro entry hentry other hother
  rcases Entries.mem_insertSorted hentry with rfl | hold
  · rcases mem_insertVersion hother with rfl | hmem
    · exact hhops
    · exact h.of_mem_versions other hmem
  · exact h entry hold other hother

end Registry
end MixedDomain
