import MixedDomain.Proofs.Address.KindMap
import MixedDomain.Proofs.Resource.Changing

/-!
# Resources in two levels

## The form

The children of a resource can be kept in two levels: by kind, and under one kind by
name.  Such a resource is tidy when this map is tidy everywhere in the tree, so that
no kind is ever without children.

## What it stands for

A tidy resource in two levels stands for the resource whose children are those of all
kinds, one kind after the other.  Every operation on it is the same operation on what
it stands for.
-/

namespace MixedDomain

/-- A resource with its children by kind, and under one kind by name. -/
structure NestedResource where node ::
  model : Value
  kinds : List (String × List (String × NestedResource))

namespace NestedResource

/-- A resource without children. -/
def ofModel (model : Value) : NestedResource :=
  .node model []

def withModel (model : Value) (n : NestedResource) : NestedResource :=
  { n with model := model }

def child? (e : PathElement) (n : NestedResource) : Option NestedResource :=
  KindMap.get? e n.kinds

def register (n : NestedResource) (e : PathElement) (c : NestedResource) : NestedResource :=
  { n with kinds := KindMap.insert e c n.kinds }

/-- Removes the child at an element, and its kind when it was the only one of it. -/
def remove (e : PathElement) (n : NestedResource) : NestedResource :=
  { n with kinds := KindMap.erase e n.kinds }

def childKinds (n : NestedResource) : List String :=
  Entries.keys n.kinds

def navigate? : Address -> NestedResource -> Option NestedResource
  | [], n => some n
  | e :: rest, n => (n.child? e).bind (navigate? rest)

def replaceAt? (c : NestedResource) : Address -> NestedResource -> Option NestedResource
  | [], _ => some c
  | e :: rest, n => do
      let mid ← n.child? e
      let mid ← replaceAt? c rest mid
      return { n with kinds := KindMap.update e mid n.kinds }

mutual

def eqv : NestedResource -> NestedResource -> Bool
  | .node model kinds, .node model' kinds' => model == model' && eqvKinds kinds kinds'

def eqvKinds : List (String × List (String × NestedResource)) ->
    List (String × List (String × NestedResource)) -> Bool
  | [], [] => true
  | (kind, named) :: rest, (kind', named') :: rest' =>
      kind == kind' && eqvNames named named' && eqvKinds rest rest'
  | _, _ => false

def eqvNames : List (String × NestedResource) -> List (String × NestedResource) -> Bool
  | [], [] => true
  | (name, c) :: rest, (name', c') :: rest' => name == name' && eqv c c' && eqvNames rest rest'
  | _, _ => false

end

instance : BEq NestedResource :=
  ⟨eqv⟩

mutual

def flat : NestedResource -> Resource
  | .node model kinds => .node model (flatKinds kinds)

def flatKinds : List (String × List (String × NestedResource)) -> List (PathElement × Resource)
  | [] => []
  | (kind, named) :: rest => flatNames kind named ++ flatKinds rest

def flatNames (kind : String) : List (String × NestedResource) -> List (PathElement × Resource)
  | [] => []
  | (name, c) :: rest => (⟨kind, name⟩, c.flat) :: flatNames kind rest

end

/-- Everywhere in the tree the map of the children is tidy. -/
inductive Tidy : NestedResource -> Prop where
  | node {model : Value} {kinds : List (String × List (String × NestedResource))}
      (here : KindMap.Tidy kinds)
      (below : forall e c, KindMap.get? e kinds = some c -> Tidy c) : Tidy (.node model kinds)

variable {n n' m : NestedResource} {r r' c : Resource} {e : PathElement} {a : Address}

theorem Tidy.kinds (h : n.Tidy) : KindMap.Tidy n.kinds := by
  cases h
  assumption

theorem Tidy.of_child? (h : n.Tidy) (hc : n.child? e = some m) : m.Tidy := by
  cases h with
  | node _ below => exact below e m hc

theorem tidy_ofModel (model : Value) : (ofModel model).Tidy :=
  .node KindMap.tidy_nil fun _ _ hc => nomatch hc

theorem Tidy.withModel (h : n.Tidy) (model : Value) : (n.withModel model).Tidy :=
  .node h.kinds fun _ _ hc => h.of_child? hc

theorem Tidy.register (h : n.Tidy) (e : PathElement) (hm : m.Tidy) : (n.register e m).Tidy := by
  refine .node (KindMap.tidy_insert h.kinds e m) ?_
  intro d c hc
  by_cases hd : d = e
  · subst hd
    rw [KindMap.get?_insert_self] at hc
    cases hc
    exact hm
  · rw [KindMap.get?_insert_of_ne hd] at hc
    exact h.of_child? hc

theorem Tidy.remove (h : n.Tidy) (e : PathElement) : (NestedResource.remove e n).Tidy := by
  refine .node (KindMap.tidy_erase h.kinds e) ?_
  intro d c hc
  by_cases hd : d = e
  · subst hd
    rw [KindMap.get?_erase_self h.kinds] at hc
    cases hc
  · rw [KindMap.get?_erase_of_ne h.kinds hd] at hc
    exact h.of_child? hc

theorem Tidy.update (h : n.Tidy) (hc : (n.child? e).isSome) (hm : m.Tidy) :
    Tidy { n with kinds := KindMap.update e m n.kinds } := by
  refine .node (KindMap.tidy_update h.kinds e m) ?_
  intro d c hd
  by_cases hne : d = e
  · subst hne
    rw [KindMap.get?_update_self hc] at hd
    cases hd
    exact hm
  · rw [KindMap.get?_update_of_ne hne] at hd
    exact h.of_child? hd

/-!
# What a resource in two levels stands for
-/

theorem flatNames_eq (kind : String) (named : List (String × NestedResource)) :
    flatNames kind named =
      (KindMap.flatNames kind named).map fun pair => (pair.1, pair.2.flat) := by
  induction named with
  | nil => rfl
  | cons entry rest ih =>
      simp only [KindMap.flatNames] at ih
      simp [flatNames, KindMap.flatNames, ih]

theorem flatKinds_eq (kinds : List (String × List (String × NestedResource))) :
    flatKinds kinds = (KindMap.flat kinds).map fun pair => (pair.1, pair.2.flat) := by
  induction kinds with
  | nil => rfl
  | cons entry rest ih =>
      rw [flatKinds, KindMap.flat_cons, List.map_append, ih, flatNames_eq]

theorem children_flat (n : NestedResource) :
    n.flat.children = (KindMap.flat n.kinds).map fun pair => (pair.1, pair.2.flat) := by
  rw [← flatKinds_eq]
  cases n
  rw [flat]

theorem model_flat (n : NestedResource) : n.flat.model = n.model := by
  cases n
  rw [flat]

theorem child?_flat (h : n.Tidy) (e : PathElement) : n.flat.child? e = (n.child? e).map flat := by
  rw [Resource.child?, children_flat, ElementMap.get?_mapValues, KindMap.get?_flat h.kinds.distinct,
    child?]

theorem ordered_children_flat (h : n.Tidy) : ElementMap.Ordered n.flat.children := by
  rw [children_flat]
  exact ElementMap.ordered_mapValues (KindMap.ordered_flat h.kinds) flat

theorem Tidy.ordered_flat (h : n.Tidy) : n.flat.Ordered := by
  induction h with
  | @node model kinds here below ih =>
      refine Resource.ordered_iff.mpr ⟨ordered_children_flat (.node here below), ?_⟩
      intro pair hpair
      rw [children_flat] at hpair
      rcases List.mem_map.mp hpair with ⟨⟨e, c⟩, hmem, rfl⟩
      have hget := ElementMap.get?_of_mem (KindMap.ordered_flat here) hmem
      rw [KindMap.get?_flat here.distinct] at hget
      exact ih e c hget

def Represents (n : NestedResource) (r : Resource) : Prop :=
  n.Tidy ∧ n.flat = r

theorem represents_of_child? (h : n.Tidy) (hr : ElementMap.Ordered r.children)
    (hmodel : n.model = r.model) (hchild : forall e, r.child? e = (n.child? e).map flat) :
    n.Represents r := by
  refine ⟨h, ?_⟩
  have hchildren : n.flat.children = r.children := by
    rw [ElementMap.eq_iff_of_ordered (ordered_children_flat h) hr]
    intro e
    exact (child?_flat h e).trans (hchild e).symm
  rw [← model_flat] at hmodel
  generalize n.flat = r' at *
  cases r
  cases r'
  cases hmodel
  cases hchildren
  rfl

namespace Represents

theorem children (h : n.Represents r) : ElementMap.Ordered r.children :=
  h.2 ▸ ordered_children_flat h.1

theorem child? (h : n.Represents r) (e : PathElement) : r.child? e = (n.child? e).map flat :=
  h.2 ▸ child?_flat h.1 e

theorem model (h : n.Represents r) : n.model = r.model := by
  rw [← h.2, model_flat]

theorem ofModel (model : Value) : (ofModel model).Represents (Resource.ofModel model) :=
  ⟨tidy_ofModel model, rfl⟩

theorem withModel (h : n.Represents r) (model : Value) :
    (n.withModel model).Represents (r.withModel model) := by
  rcases h with ⟨htidy, rfl⟩
  refine ⟨htidy.withModel model, ?_⟩
  cases n
  rfl

theorem register (h : n.Represents r) (e : PathElement) (hm : m.Represents c) :
    (n.register e m).Represents (r.register e c) := by
  rcases hm with ⟨hm, rfl⟩
  refine represents_of_child? (h.1.register e hm) (ElementMap.ordered_insert h.children e m.flat)
    h.model ?_
  intro d
  by_cases hd : d = e
  · subst hd
    rw [NestedResource.child?, NestedResource.register, KindMap.get?_insert_self]
    exact ElementMap.get?_insert_self d m.flat r.children
  · rw [NestedResource.child?, NestedResource.register, KindMap.get?_insert_of_ne hd]
    exact (ElementMap.get?_insert_of_ne hd m.flat r.children).trans (h.child? d)

theorem remove (h : n.Represents r) (e : PathElement) :
    (NestedResource.remove e n).Represents (Resource.remove e r) := by
  refine represents_of_child? (h.1.remove e) (ElementMap.ordered_erase h.children e) h.model ?_
  intro d
  by_cases hd : d = e
  · subst hd
    rw [NestedResource.child?, NestedResource.remove, KindMap.get?_erase_self h.1.kinds]
    exact ElementMap.get?_erase_self h.children d
  · rw [NestedResource.child?, NestedResource.remove, KindMap.get?_erase_of_ne h.1.kinds hd]
    exact (ElementMap.get?_erase_of_ne hd r.children).trans (h.child? d)

theorem update (h : n.Represents r) (hc : (n.child? e).isSome) (hm : m.Represents c) :
    Represents { n with kinds := KindMap.update e m n.kinds }
      { r with children := ElementMap.update e c r.children } := by
  rcases hm with ⟨hm, rfl⟩
  refine represents_of_child? (h.1.update hc hm) (ElementMap.ordered_update h.children e m.flat)
    h.model ?_
  intro d
  by_cases hd : d = e
  · subst hd
    have hthere : (r.child? d).isSome := by
      rw [h.child?, Option.isSome_map]
      exact hc
    rw [NestedResource.child?, KindMap.get?_update_self hc]
    exact ElementMap.get?_update_self hthere m.flat
  · rw [NestedResource.child?, KindMap.get?_update_of_ne hd]
    exact (ElementMap.get?_update_of_ne hd m.flat r.children).trans (h.child? d)

theorem rel_child? (h : n.Represents r) (e : PathElement) :
    Option.Rel Represents (n.child? e) (r.child? e) := by
  rw [h.child?]
  cases hc : n.child? e with
  | none => exact .none
  | some m => exact .some ⟨h.1.of_child? hc, rfl⟩

theorem rel_navigate? (h : n.Represents r) (a : Address) :
    Option.Rel Represents (n.navigate? a) (r.navigate? a) := by
  induction a generalizing n r with
  | nil => exact .some h
  | cons e rest ih => exact Option.rel_bind (h.rel_child? e) fun _ _ hbelow => ih hbelow

theorem rel_replaceAt? (h : n.Represents r) (a : Address) (hm : m.Represents c) :
    Option.Rel Represents (replaceAt? m a n) (r.updateAt? (fun _ => c) a) := by
  induction a generalizing n r with
  | nil => exact .some hm
  | cons e rest ih =>
      simp only [replaceAt?, Resource.updateAt?, Option.bind_eq_bind]
      cases hmid : n.child? e with
      | none =>
          rw [h.child?, hmid]
          exact .none
      | some mid =>
          have hthere : (n.child? e).isSome := Option.isSome_of_eq_some hmid
          have hbelow := ih ⟨h.1.of_child? hmid, rfl⟩
          rw [h.child?, hmid, Option.map_some, Option.bind_some, Option.bind_some]
          exact Option.rel_bind hbelow fun _ _ hnew => .some (h.update hthere hnew)

end Represents
end NestedResource
end MixedDomain
