import Mathlib.Data.List.Infix
import MixedDomain.Address.Trie
import MixedDomain.Proofs.Address.ElementMap

/-!
# Tries without gaps

## Filled tries

A trie is filled when every node below its root holds a configuration.  A trie
stays filled when a configuration is stored right below a node that is there.

## The way to an address

What is met on the way to a child is what is met on the way to its parent, and
then the configuration of the child.  So the way shows what is found by looking up the
beginnings of the address, the shorter ones first.
-/

namespace MixedDomain
namespace Trie

variable {config : Type} {p : config -> Prop} {t : Trie config}

/-- Every node below the root holds a configuration with a property. -/
inductive Filled (p : config -> Prop) : Trie config -> Prop where
  | node {here? : Option config} {children : List (PathElement × Trie config)} :
      (∀ pair ∈ children, exists c, pair.2.here? = some c ∧ p c) ->
      (∀ pair ∈ children, Filled p pair.2) ->
      Filled p (.node here? children)

theorem filled_empty : Filled p (empty : Trie config) :=
  .node (fun _ h => nomatch h) (fun _ h => nomatch h)

theorem Filled.here?_of_mem (h : Filled p t) {pair : PathElement × Trie config}
    (hmem : pair ∈ t.children) : exists c, pair.2.here? = some c ∧ p c := by
  cases h with
  | node hhere _ => exact hhere pair hmem

theorem Filled.of_mem (h : Filled p t) {pair : PathElement × Trie config}
    (hmem : pair ∈ t.children) : Filled p pair.2 := by
  cases h with
  | node _ hbelow => exact hbelow pair hmem

theorem mem_of_child? {e : PathElement} {next : Trie config} (h : t.child? e = some next) :
    exists d, (d, next) ∈ t.children := by
  unfold child? at h
  split at h
  · rename_i found hfound
    cases h
    exact ⟨e, ElementMap.mem_of_get? hfound⟩
  · exact ⟨_, ElementMap.mem_of_get? h⟩

theorem Filled.of_node? (h : Filled p t) {a : Address} {n : Trie config}
    (hnode : t.node? a = some n) : Filled p n := by
  induction a generalizing t with
  | nil =>
      cases hnode
      exact h
  | cons e rest ih =>
      rcases Option.bind_eq_some_iff.mp hnode with ⟨next, hchild, hrest⟩
      rcases mem_of_child? hchild with ⟨d, hmem⟩
      exact ih (h.of_mem hmem) hrest

theorem Filled.here?_of_node? (h : Filled p t) {a : Address} {e : PathElement} {n : Trie config}
    (hnode : t.node? (a ++ [e]) = some n) : exists c, n.here? = some c ∧ p c := by
  rw [node?_append] at hnode
  rcases Option.bind_eq_some_iff.mp hnode with ⟨parent, hparent, hchild⟩
  rcases Option.bind_eq_some_iff.mp hchild with ⟨n', hn', hend⟩
  cases hend
  rcases mem_of_child? hn' with ⟨d, hmem⟩
  exact (h.of_node? hparent).here?_of_mem hmem

theorem Filled.of_get? (h : Filled p t) (hroot : t.here? = none) {a : Address} {c : config}
    (hget : t.get? a = some c) : p c := by
  rcases Option.bind_eq_some_iff.mp hget with ⟨n, hnode, hhere⟩
  rcases List.eq_nil_or_concat a with rfl | ⟨parent, e, rfl⟩
  · cases hnode
    rw [hroot] at hhere
    cases hhere
  · rw [List.concat_eq_append] at hnode
    rcases h.here?_of_node? hnode with ⟨found, hfound, hp⟩
    rw [hfound] at hhere
    cases hhere
    exact hp

/-!
# Storing right below a node
-/

theorem isSome_stored?_modify (f : Option config -> Option config) {q : Address}
    (h : (t.stored? q).isSome) (a : Address) : ((t.modify f a).stored? q).isSome := by
  induction a generalizing t q with
  | nil =>
      cases q <;> exact h
  | cons e rest ih =>
      cases q with
      | nil => rfl
      | cons d others =>
          simp only [modify, stored?] at *
          by_cases hd : d = e
          · subst hd
            cases hget : ElementMap.get? d t.children with
            | none =>
                rw [hget] at h
                cases h
            | some next =>
                rw [hget] at h
                rw [ElementMap.get?_insert_self]
                exact ih h
          · rw [ElementMap.get?_insert_of_ne hd]
            exact h

theorem isSome_stored?_modify_self (f : Option config -> Option config) (a : Address)
    (t : Trie config) : ((t.modify f a).stored? a).isSome := by
  induction a generalizing t with
  | nil => rfl
  | cons e rest ih =>
      simp only [modify, stored?, ElementMap.get?_insert_self]
      exact ih _

theorem here?_modify_cons (f : Option config -> Option config) (e : PathElement) (rest : Address)
    (t : Trie config) : (t.modify f (e :: rest)).here? = t.here? := by
  rfl

theorem Filled.insert_child (h : Filled p t) {a : Address} (hstored : (t.stored? a).isSome)
    (e : PathElement) {c : config} (hc : p c) : Filled p (t.insert (a ++ [e]) c) := by
  induction a generalizing t with
  | nil =>
      cases h with
      | @node here? children hhere hbelow =>
          have hnext : Filled p ((ElementMap.get? e children).getD empty) := by
            cases hget : ElementMap.get? e children with
            | none => exact filled_empty
            | some next => exact hbelow (e, next) (ElementMap.mem_of_get? hget)
          refine .node ?_ ?_
          · intro pair hpair
            rcases ElementMap.mem_insert hpair with rfl | hold
            · exact ⟨c, rfl, hc⟩
            · exact hhere pair hold
          · intro pair hpair
            rcases ElementMap.mem_insert hpair with rfl | hold
            · exact .node (fun _ hmem => hnext.here?_of_mem hmem) (fun _ hmem => hnext.of_mem hmem)
            · exact hbelow pair hold
  | cons d rest ih =>
      simp only [stored?] at hstored
      cases hget : ElementMap.get? d t.children with
      | none =>
          rw [hget] at hstored
          cases hstored
      | some next =>
          rw [hget] at hstored
          have hmem := ElementMap.mem_of_get? hget
          have hnext : Filled p (next.insert (rest ++ [e]) c) := ih (h.of_mem hmem) hstored
          have hhere : (next.insert (rest ++ [e]) c).here? = next.here? := by
            cases rest <;> rfl
          simp only [insert, List.cons_append, modify, hget, Option.getD_some] at *
          refine .node ?_ ?_
          · intro pair hpair
            rcases ElementMap.mem_insert hpair with rfl | hold
            · simpa only [hhere] using h.here?_of_mem hmem
            · exact h.here?_of_mem hold
          · intro pair hpair
            rcases ElementMap.mem_insert hpair with rfl | hold
            · exact hnext
            · exact h.of_mem hold

/-!
# Storing in order
-/

def insertNodes (nodes : List (Address × config)) (t : Trie config) : Trie config :=
  nodes.foldl (fun trie node => trie.insert node.1 node.2) t

theorem insertNodes_cons (node : Address × config) (rest : List (Address × config))
    (t : Trie config) :
    t.insertNodes (node :: rest) = (t.insert node.1 node.2).insertNodes rest := by
  rfl

theorem insertNodes_append (first second : List (Address × config)) (t : Trie config) :
    t.insertNodes (first ++ second) = (t.insertNodes first).insertNodes second := by
  exact List.foldl_append

theorem isSome_stored?_insertNodes {q : Address} (nodes : List (Address × config))
    {t : Trie config} (h : (t.stored? q).isSome) : ((t.insertNodes nodes).stored? q).isSome := by
  induction nodes generalizing t with
  | nil =>
      exact h
  | cons node rest ih =>
      exact ih (isSome_stored?_modify _ h node.1)

theorem here?_insertNodes {nodes : List (Address × config)} (h : ∀ node ∈ nodes, node.1 ≠ [])
    (t : Trie config) : (t.insertNodes nodes).here? = t.here? := by
  induction nodes generalizing t with
  | nil =>
      rfl
  | cons node rest ih =>
      rw [insertNodes_cons, ih fun other hother => h other (List.mem_cons_of_mem node hother)]
      rcases node with ⟨a, c⟩
      cases a with
      | nil => exact absurd rfl (h ([], c) List.mem_cons_self)
      | cons e others => exact here?_modify_cons _ e others t

/-!
# The way to an address
-/

theorem alongFrom_append_singleton (depth : Nat) (a : Address) (e : PathElement)
    (t : Trie config) :
    alongFrom depth (a ++ [e]) t =
      alongFrom depth a t ++
        ((t.get? (a ++ [e])).map fun c => (depth + a.length + 1, c)).toList := by
  induction a generalizing depth t with
  | nil =>
      cases hchild : t.child? e <;> simp [alongFrom, get?, node?, hchild]
  | cons d rest ih =>
      cases hchild : t.child? d with
      | none => simp [alongFrom, get?, node?, hchild]
      | some next =>
          have hdepth : depth + 1 + rest.length = depth + (rest.length + 1) := by
            omega
          have hget : t.get? (d :: (rest ++ [e])) = next.get? (rest ++ [e]) := by
            simp [get?, node?, hchild]
          simp [alongFrom, hchild, ih, hget, hdepth]

theorem along_child (a : Address) (e : PathElement) (t : Trie config) :
    t.along (a.child e) =
      t.along a ++ ((t.get? (a.child e)).map fun c => (a.length + 1, c)).toList := by
  unfold along Address.child
  rw [alongFrom_append_singleton]
  simp

theorem along_eq_filterMap_inits (a : Address) (t : Trie config) :
    t.along a = a.inits.filterMap fun b => (t.get? b).map fun found => (b.length, found) := by
  induction a using List.reverseRecOn with
  | nil =>
      cases hhere : t.here? <;> simp [along, alongFrom, get?, node?, hhere]
  | append_singleton parent e ih =>
      have hchild := along_child parent e t
      rw [Address.child] at hchild
      rw [hchild, ih, List.inits_append, List.filterMap_append]
      cases hget : t.get? (parent ++ [e]) <;> simp [hget]

theorem inits_eq_map_slice (a : Address) :
    a.inits = (List.range (a.length + 1)).map (a.slice 0) := by
  apply List.ext_getElem
  · simp
  · intro depth _ _
    simp [Address.slice_zero]

/-- Walking to an address meets, in the order of the depths from the root on, just the configurations
that are found by looking up what the address is up to a depth.  This holds of every trie, whatever
was stored in it and whichever nodes were made on demand. -/
theorem along_eq_lookups (a : Address) (t : Trie config) :
    t.along a = (List.range (a.length + 1)).filterMap fun depth =>
      (t.get? (a.slice 0 depth)).map fun c => (depth, c) := by
  rw [along_eq_filterMap_inits, inits_eq_map_slice, List.filterMap_map]
  apply List.filterMap_congr
  intro depth hdepth
  have hlength : (a.slice 0 depth).length = depth := by
    rw [Address.slice_zero, List.length_take]
    exact Nat.min_eq_left (Nat.le_of_lt_succ (List.mem_range.mp hdepth))
  rw [Function.comp_apply, hlength]

theorem depth_le_of_mem_alongFrom {depth : Nat} {a : Address} {entry : Nat × config}
    (h : entry ∈ alongFrom depth a t) : entry.1 ≤ depth + a.length := by
  induction a generalizing depth t with
  | nil =>
      cases h
  | cons e rest ih =>
      cases hchild : t.child? e with
      | none =>
          simp [alongFrom, hchild] at h
      | some next =>
          simp only [alongFrom, hchild] at h
          rcases List.mem_append.mp h with hhere | hrest
          · simp only [Option.mem_toList, Option.map_eq_some_iff] at hhere
            rcases hhere with ⟨c, _, rfl⟩
            simp only [List.length_cons]
            omega
          · have hle := ih hrest
            simp only [List.length_cons]
            omega

theorem depth_le_of_mem_along {a : Address} {entry : Nat × config} (h : entry ∈ t.along a) :
    entry.1 ≤ a.length := by
  rcases List.mem_append.mp h with hhere | hrest
  · simp only [Option.mem_toList, Option.map_eq_some_iff] at hhere
    rcases hhere with ⟨c, _, rfl⟩
    exact Nat.zero_le _
  · simpa using depth_le_of_mem_alongFrom hrest

theorem Filled.of_mem_alongFrom (h : Filled p t) {depth : Nat} {a : Address}
    {entry : Nat × config} (hmem : entry ∈ alongFrom depth a t) : p entry.2 := by
  induction a generalizing depth t with
  | nil =>
      cases hmem
  | cons e rest ih =>
      cases hchild : t.child? e with
      | none =>
          simp [alongFrom, hchild] at hmem
      | some next =>
          simp only [alongFrom, hchild] at hmem
          rcases mem_of_child? hchild with ⟨d, hnext⟩
          rcases List.mem_append.mp hmem with hhere | hrest
          · rcases h.here?_of_mem hnext with ⟨c, hc, hp⟩
            simp only [Option.mem_toList, Option.map_eq_some_iff] at hhere
            rcases hhere with ⟨c', hc', rfl⟩
            rw [show next.here? = some c from hc] at hc'
            cases hc'
            exact hp
          · exact ih (h.of_mem hnext) hrest

end Trie
end MixedDomain
