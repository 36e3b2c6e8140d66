import MixedDomain.Proofs.Address.Lookup
import MixedDomain.Proofs.Description.Building
import MixedDomain.Proofs.Hop.Describing
import MixedDomain.Proofs.KeyedLists

/-!
# Hops and the trees they are made of

## Walking

In a tree of descriptions an address is followed from the top down: its first
element must be one that the top covers, and every other one leads to the tree below
for exactly this element or else to the one for the wildcard of its key.

## Flattening

When the trees below each tree have distinct elements, flattening gives all nodes
different addresses: the literal ways to them from the top.  So none of them replaces
another one in the hop, and a look-up there takes the same steps as the walk.
-/

namespace MixedDomain

theorem PathElement.covers_iff (e other : PathElement) :
    e.covers other ↔ e = other ∨ e = wildcard other.key := by
  cases e
  cases other
  simp only [covers, isWildcard, wildcard, Bool.and_eq_true, Bool.or_eq_true, beq_iff_eq,
    PathElement.mk.injEq]
  tauto

namespace DescriptionTree

/-!
# Walking
-/

/-- The tree right below that stands for an element: the one for exactly this element before the one
for the wildcard of its key. -/
def childFor? (e : PathElement) (t : DescriptionTree) : Option DescriptionTree :=
  (t.child? e).or (t.child? (PathElement.wildcard e.key))

def below? : Address -> DescriptionTree -> Option DescriptionTree
  | [], t => some t
  | e :: rest, t => (t.childFor? e).bind (below? rest)

/-- The tree that stands for an address; the root has none. -/
def walk? (t : DescriptionTree) : Address -> Option DescriptionTree
  | [] => none
  | e :: rest => if t.element.covers e then t.below? rest else none

/-- The tree at an address which starts below the top, with wildcards taken literally. -/
def at? : Address -> DescriptionTree -> Option DescriptionTree
  | [], t => some t
  | e :: rest, t => (t.child? e).bind (at? rest)

variable {t u : DescriptionTree} {e : PathElement} {p path : Address} {d : ResourceDescription}

theorem at?_append (a b : Address) (t : DescriptionTree) :
    t.at? (a ++ b) = (t.at? a).bind (at? b) := by
  induction a generalizing t with
  | nil => rfl
  | cons e rest ih =>
      rw [List.cons_append, at?, at?, Option.bind_assoc]
      exact congrArg _ (funext ih)

theorem at?_child (path : Address) (e : PathElement) (t : DescriptionTree) :
    t.at? (path.child e) = (t.at? path).bind (child? e) := by
  rw [Address.child, at?_append]
  exact congrArg _ (funext fun u => Option.bind_fun_some (u.child? e))

theorem element_of_child? (h : t.child? e = some u) : u.element = e := by
  simpa using List.find?_some h

theorem mem_of_child? (h : t.child? e = some u) : u ∈ t.children :=
  List.mem_of_find?_eq_some h

theorem Separated.child?_of_mem (h : t.Separated) (hmem : u ∈ t.children) :
    t.child? u.element = some u := by
  cases h with
  | intro hdistinct _ => exact List.find?_key_of_mem hdistinct hmem

/-!
# Flattening
-/

theorem flattenAll_eq_flatMap (parent : Address) (trees : List DescriptionTree) :
    flattenAll parent trees = trees.flatMap (flatten parent) := by
  induction trees with
  | nil => rfl
  | cons t rest ih => rw [flattenAll, ih, List.flatMap_cons]

theorem flatten_eq_cons (parent : Address) (t : DescriptionTree) :
    t.flatten parent = (parent.child t.element, t.description) ::
      t.children.flatMap (flatten (parent.child t.element)) := by
  cases t with
  | node description children =>
      rw [flatten, flattenAll_eq_flatMap]
      rfl

theorem Separated.mem_flatten_iff (h : t.Separated) {parent : Address} :
    (p, d) ∈ t.flatten parent ↔
      exists path u, t.at? path = some u ∧ p = parent.child t.element ++ path ∧
        d = u.description := by
  induction h generalizing parent p with
  | @intro t hdistinct hbelow ih =>
      have ht : t.Separated := .intro hdistinct hbelow
      rw [flatten_eq_cons, List.mem_cons, List.mem_flatMap]
      constructor
      · rintro (heq | ⟨child, hchild, hmem⟩)
        · cases heq
          exact ⟨[], t, rfl, (List.append_nil _).symm, rfl⟩
        · -- the way to a node below a child begins with the element of the child
          rcases (ih child hchild).mp hmem with ⟨path, u, hu, rfl, rfl⟩
          refine ⟨child.element :: path, u, ?_, ?_, rfl⟩
          · rw [at?, ht.child?_of_mem hchild]
            exact hu
          · rw [Address.append_cons_eq_child]
      · rintro ⟨path, u, hu, rfl, rfl⟩
        cases path with
        | nil =>
            cases hu
            rw [List.append_nil]
            exact Or.inl rfl
        | cons e rest =>
            rcases Option.bind_eq_some_iff.mp hu with ⟨child, hchild, hrest⟩
            have hmem := mem_of_child? hchild
            refine Or.inr ⟨child, hmem, (ih child hmem).mpr ⟨rest, u, hrest, ?_, rfl⟩⟩
            rw [element_of_child? hchild, Address.append_cons_eq_child]

theorem Separated.nodup_flatten (h : t.Separated) (parent : Address) :
    ((t.flatten parent).map Prod.fst).Nodup := by
  induction h generalizing parent with
  | @intro t hdistinct hbelow ih =>
      rw [flatten_eq_cons, List.map_cons, List.map_flatMap, List.nodup_cons, List.nodup_flatMap]
      -- the addresses of a child start with its element, right after the address of the top
      have hstart : ∀ child ∈ t.children, ∀ q ∈
          (child.flatten (parent.child t.element)).map Prod.fst,
          exists path, q = parent.child t.element ++ child.element :: path := by
        intro child hchild q hq
        rcases List.mem_map.mp hq with ⟨node, hnode, rfl⟩
        rcases (hbelow child hchild).mem_flatten_iff.mp hnode with ⟨path, _, _, hpath, _⟩
        exact ⟨path, hpath.trans (Address.append_cons_eq_child _ _ _).symm⟩
      refine ⟨?_, fun child hchild => ih child hchild _, ?_⟩
      · intro hmem
        rcases List.mem_flatMap.mp hmem with ⟨child, hchild, hq⟩
        rcases hstart child hchild _ hq with ⟨path, hpath⟩
        exact absurd hpath (by simp)
      · refine (List.pairwise_map.mp hdistinct).imp_of_mem ?_
        intro first second hfirst hsecond hne q hq hq'
        rcases hstart first hfirst q hq with ⟨path, rfl⟩
        rcases hstart second hsecond _ hq' with ⟨path', hpath'⟩
        exact hne (List.cons.inj (List.append_cancel_left hpath')).1

end DescriptionTree

/-!
# Hops of trees
-/

namespace Trie

variable {config : Type} {entries : List (Address × config)} {p : Address} {c : config}

/-- When all patterns are distinct, none is overtaken by a later one. -/
theorem lastAt?_of_mem (hkeys : (entries.map Prod.fst).Nodup) (h : (p, c) ∈ entries) :
    lastAt? p entries = some c := by
  have hsome : (lastAt? p entries).isSome := isSome_lastAt?_iff.mpr (List.mem_map_of_mem h)
  rcases Option.isSome_iff_exists.mp hsome with ⟨last, hlast⟩
  rcases Option.map_eq_some_iff.mp hlast with ⟨entry, hfind, rfl⟩
  have hmem : entry ∈ entries := List.mem_reverse.mp (List.mem_of_find?_eq_some hfind)
  have hkey : entry.1 = p := by
    simpa using List.find?_some hfind
  rw [hlast, List.inj_on_of_nodup_map hkeys hmem h hkey]

theorem child?_eq_or (e : PathElement) (t : Trie config) :
    t.child? e =
      (ElementMap.get? e t.children).or
        (ElementMap.get? (PathElement.wildcard e.key) t.children) := by
  rw [child?]
  cases ElementMap.get? e t.children <;> rfl

end Trie

namespace Hop

variable {t u : DescriptionTree} {n : Trie ResourceDescription} {e : PathElement} {path : Address}

theorem descriptions_ofTree (t : DescriptionTree) :
    (ofTree t).descriptions = Trie.empty.insertNodes (t.flatten Address.root) := by
  rfl

theorem storedAt?_ofTree_of_mem (h : t.Separated) {node : Address × ResourceDescription}
    (hmem : node ∈ t.flatten Address.root) :
    (ofTree t).descriptions.storedAt? node.1 = some node.2 := by
  rw [descriptions_ofTree, Trie.storedAt?_insertNodes]
  exact Trie.lastAt?_of_mem (h.nodup_flatten Address.root) hmem

theorem isSome_stored?_ofTree_iff (h : t.Separated) :
    ((ofTree t).descriptions.stored? (e :: path)).isSome ↔
      t.element = e ∧ (t.at? path).isSome := by
  rw [descriptions_ofTree, Trie.isSome_stored?_insertNodes_iff, Address.begins_iff,
    or_iff_right (List.cons_ne_nil e path)]
  constructor
  · rintro ⟨q, hq, hprefix⟩
    rcases List.mem_map.mp hq with ⟨node, hnode, rfl⟩
    rcases h.mem_flatten_iff.mp hnode with ⟨whole, u, hu, hwhole, _⟩
    rw [hwhole] at hprefix
    rcases List.cons_prefix_cons.mp hprefix with ⟨rfl, rest, rfl⟩
    refine ⟨rfl, ?_⟩
    -- the beginning of a literal way is one, too
    rw [DescriptionTree.at?_append] at hu
    rcases Option.bind_eq_some_iff.mp hu with ⟨mid, hmid, _⟩
    rw [hmid]
    rfl
  · rintro ⟨rfl, hsome⟩
    rcases Option.isSome_iff_exists.mp hsome with ⟨u, hu⟩
    exact ⟨_, List.mem_map_of_mem (h.mem_flatten_iff.mpr ⟨path, u, hu, rfl, rfl⟩), List.prefix_rfl⟩

def Mirrors (t : DescriptionTree) (n : Trie ResourceDescription) (u : DescriptionTree) : Prop :=
  exists path, t.at? path = some u ∧
    (ofTree t).descriptions.stored? (t.element :: path) = some n

theorem Mirrors.here?_eq (hm : Mirrors t n u) (h : t.Separated) : n.here? = some u.description := by
  rcases hm with ⟨path, hu, hn⟩
  have hstored := storedAt?_ofTree_of_mem h
    (h.mem_flatten_iff.mpr ⟨path, u, hu, rfl, rfl⟩ :
      (Address.root.child t.element ++ path, u.description) ∈ t.flatten Address.root)
  rw [Trie.storedAt?] at hstored
  rcases Option.bind_eq_some_iff.mp hstored with ⟨m, hm, hhere⟩
  cases hn.symm.trans hm
  exact hhere

theorem Mirrors.rel_get? (hm : Mirrors t n u) (h : t.Separated) (e : PathElement) :
    Option.Rel (Mirrors t) (ElementMap.get? e n.children) (u.child? e) := by
  rcases hm with ⟨path, hu, hn⟩
  have hget := Trie.stored?_child hn e
  have hat : t.at? (path.child e) = u.child? e := by
    rw [DescriptionTree.at?_child, hu, Option.bind_some]
  have hiff : (ElementMap.get? e n.children).isSome ↔ (u.child? e).isSome := by
    rw [← hget, ← hat]
    exact (isSome_stored?_ofTree_iff h).trans (and_iff_right rfl)
  refine Option.rel_of_isSome_iff hiff ?_
  intro m v hm hv
  exact ⟨path.child e, hat.trans hv, hget.trans hm⟩

theorem Mirrors.rel_child? (hm : Mirrors t n u) (h : t.Separated) (e : PathElement) :
    Option.Rel (Mirrors t) (n.child? e) (u.childFor? e) := by
  rw [Trie.child?_eq_or, DescriptionTree.childFor?]
  exact Option.rel_or (hm.rel_get? h e) (hm.rel_get? h (PathElement.wildcard e.key))

theorem Mirrors.get?_eq (hm : Mirrors t n u) (h : t.Separated) (a : Address) :
    n.get? a = (u.below? a).map DescriptionTree.description := by
  induction a generalizing n u with
  | nil => exact hm.here?_eq h
  | cons e rest ih =>
      rw [Trie.get?, Trie.node?_cons, DescriptionTree.below?]
      have hchild := hm.rel_child? h e
      generalize n.child? e = m at hchild
      generalize u.childFor? e = v at hchild
      cases hchild with
      | none => rfl
      | some hbelow => exact ih hbelow

/-!
# From the root
-/

theorem rel_get?_root (h : t.Separated) (e : PathElement) :
    Option.Rel (Mirrors t) (ElementMap.get? e (ofTree t).descriptions.children)
      (if t.element = e then some t else none) := by
  have hroot : (ofTree t).descriptions.stored? Address.root = some (ofTree t).descriptions := by
    rfl
  have hget := Trie.stored?_child hroot e
  have hstored : ((ofTree t).descriptions.stored? (Address.root.child e)).isSome ↔
      t.element = e ∧ (t.at? Address.root).isSome :=
    isSome_stored?_ofTree_iff h
  refine Option.rel_of_isSome_iff ?_ ?_
  · rw [← hget, hstored, Option.isSome_ite]
    exact and_iff_left rfl
  · intro m u hm hu
    rcases Option.ite_some_none_eq_some.mp hu with ⟨rfl, rfl⟩
    exact ⟨Address.root, rfl, hget.trans hm⟩

theorem rel_child?_root (h : t.Separated) (e : PathElement) :
    Option.Rel (Mirrors t) ((ofTree t).descriptions.child? e)
      (if t.element.covers e then some t else none) := by
  have hboth := Option.rel_or (rel_get?_root h e) (rel_get?_root h (PathElement.wildcard e.key))
  rw [← Trie.child?_eq_or] at hboth
  -- the top covers just its own element and, if it is a wildcard, all of its key
  have hor : (if t.element = e then some t else none).or
      (if t.element = PathElement.wildcard e.key then some t else none) =
        if t.element.covers e then some t else none := by
    simp only [PathElement.covers_iff]
    by_cases hown : t.element = e <;> simp [hown]
  rw [hor] at hboth
  exact hboth

theorem description?_eq_walk? (h : t.Separated) (a : Address) :
    (ofTree t).description? a = (t.walk? a).map DescriptionTree.description := by
  cases a with
  | nil => exact here?_ofTree t
  | cons e rest =>
      have htop := rel_child?_root h e
      rw [description?, Trie.get?, Trie.node?_cons, DescriptionTree.walk?]
      by_cases hcovers : t.element.covers e
      · rw [if_pos hcovers] at htop ⊢
        generalize (ofTree t).descriptions.child? e = m at htop
        cases htop with
        | some hm => exact hm.get?_eq h rest
      · rw [if_neg hcovers] at htop ⊢
        generalize (ofTree t).descriptions.child? e = m at htop
        cases htop
        rfl

/-- The hop of declarations that have been built has for each address the description that the walk
through their tree reaches.  All nodes of the tree have different addresses, and each is stored at
its own. -/
theorem description?_ofTree_of_isBuilt {d : ResourceDeclarations} (h : d.IsBuilt) :
    (forall a, (ofTree d.describe).description? a =
      (d.describe.walk? a).map DescriptionTree.description) ∧
    ((d.describe.flatten Address.root).map Prod.fst).Nodup ∧
    (∀ node ∈ d.describe.flatten Address.root,
      (ofTree d.describe).descriptions.storedAt? node.1 = some node.2) := by
  have hseparated := ResourceDeclarations.separated_describe h.distinctBelow
  exact ⟨description?_eq_walk? hseparated, hseparated.nodup_flatten Address.root,
    fun _ hnode => storedAt?_ofTree_of_mem hseparated hnode⟩

end Hop

/-!
# Servers with and without logs

One server is described on its own, all others together with their logs.  For a log of
the former there is no description: the step to the server is not taken back.
-/

namespace ServerLogs

def plain (parent : Address) (key value : String) : ResourceDeclarations :=
  .start parent ⟨key, value⟩ (.fixed .never) none

def withMain : ResourceDeclarations :=
  let top := ResourceDeclarations.ofSubsystem "mail"
  top.addChild (plain top.path "server" "main")

def mail : ResourceDeclarations :=
  let servers := plain withMain.path "server" "*"
  withMain.addChild (servers.addChild (plain servers.path "log" "*"))

def log (server : String) : Address :=
  [⟨"subsystem", "mail"⟩, ⟨"server", server⟩, ⟨"log", "access"⟩]

theorem isBuilt_mail : mail.IsBuilt := by
  have hservers : withMain.beginChild ⟨"server", "*"⟩ (.fixed .never) none =
      .ok (plain withMain.path "server" "*") := by
    rfl
  exact ⟨Address.subsystemElement "mail",
    .child (.child (.none _) rfl (.none _)) hservers (.child (.none _) rfl (.none _))⟩

end ServerLogs

open ServerLogs in
theorem Hop.description?_ofTree_mail : mail.IsBuilt ∧
    ((ofTree mail.describe).description? (log "other")).map ResourceDescription.element =
      some ⟨"log", "*"⟩ ∧
    ((ofTree mail.describe).description? (log "main")).map ResourceDescription.element = none := by
  rcases Hop.description?_ofTree_of_isBuilt isBuilt_mail with ⟨hwalk, _, _⟩
  refine ⟨isBuilt_mail, ?_, ?_⟩
  · rw [hwalk]
    rfl
  · rw [hwalk]
    rfl

end MixedDomain
