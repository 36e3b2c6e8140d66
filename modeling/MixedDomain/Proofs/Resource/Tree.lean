import MixedDomain.Proofs.Address.ElementMap
import MixedDomain.Resource.Basic

/-!
# Changing resources inside a tree

## Updates

A change below an address is seen by following that address.  Two changes at one
address are one change, and a change of a child that has just been put there is a
change of what is put there.

## Resources of a tree

The resources of a tree are listed with their addresses.  In a tree in which all
children are in order, they are those that their addresses lead to, and they are
listed in the order of their addresses.
-/

namespace MixedDomain
namespace Address

theorem compare_append (a b b' : Address) : compare (a ++ b) (a ++ b') = compare b b' := by
  induction a with
  | nil =>
      rfl
  | cons e rest ih =>
      simp [compare, (PathElement.compare_eq_eq_iff e e).mpr rfl, ih]

theorem compare_append_cons (a : Address) (e : PathElement) (b : Address) :
    compare a (a ++ e :: b) = .lt := by
  have hbelow := compare_append a [] (e :: b)
  rw [List.append_nil] at hbelow
  exact hbelow

/-- Of two children, the first comes with all that is below it before the second. -/
theorem compare_append_of_lt (a : Address) {e d : PathElement} (h : e.compare d = .lt)
    (b b' : Address) : compare (a ++ e :: b) (a ++ d :: b') = .lt := by
  rw [compare_append, compare, h]
  rfl

end Address

namespace Resource

variable {f g : Resource -> Resource} {a : Address} {r r' : Resource}

/-!
# Updates
-/

theorem updateAt?_cons_eq_some {e : PathElement} {rest : Address}
    (h : r.updateAt? f (e :: rest) = some r') :
    exists c c', r.child? e = some c ∧ c.updateAt? f rest = some c' ∧
      r' = { r with children := ElementMap.update e c' r.children } := by
  simp only [updateAt?] at h
  rcases Option.bind_eq_some_iff.mp h with ⟨c, hc, h⟩
  rcases Option.bind_eq_some_iff.mp h with ⟨c', hc', h⟩
  cases h
  exact ⟨c, c', hc, hc', rfl⟩

theorem updateAt?_cons_of_child? {e : PathElement} {rest : Address} {c c' : Resource}
    (hc : r.child? e = some c) (hc' : c.updateAt? f rest = some c') :
    r.updateAt? f (e :: rest) = some { r with children := ElementMap.update e c' r.children } := by
  simp [updateAt?, hc, hc']

theorem child?_update_self {e : PathElement} {c : Resource} (hc : r.child? e = some c)
    (c' : Resource) :
    child? e { r with children := ElementMap.update e c' r.children } = some c' := by
  have hsome : (ElementMap.get? e r.children).isSome := Option.isSome_of_eq_some hc
  exact ElementMap.get?_update_self hsome c'

theorem navigate?_of_updateAt? (h : r.updateAt? f a = some r') :
    r'.navigate? a = (r.navigate? a).map f := by
  induction a generalizing r r' with
  | nil =>
      cases h
      rfl
  | cons e rest ih =>
      rcases updateAt?_cons_eq_some h with ⟨c, c', hc, hc', rfl⟩
      simp only [navigate?, hc, child?_update_self hc, Option.bind_some]
      exact ih hc'

theorem updateAt?_eq_bind (f : Resource -> Resource) (a : Address) (r : Resource) :
    r.updateAt? f a = (r.navigate? a).bind fun c => r.updateAt? (fun _ => f c) a := by
  induction a generalizing r with
  | nil =>
      rfl
  | cons e rest ih =>
      cases hc : r.child? e with
      | none =>
          simp [updateAt?, navigate?, hc]
      | some c =>
          simp only [updateAt?, navigate?, hc, Option.bind_eq_bind, Option.bind_some, ih c,
            Option.bind_assoc]

theorem updateAt?_id (h : (r.navigate? a).isSome) : r.updateAt? (fun c => c) a = some r := by
  induction a generalizing r with
  | nil =>
      rfl
  | cons e rest ih =>
      cases hc : r.child? e with
      | none =>
          simp [navigate?, hc] at h
      | some c =>
          simp only [navigate?, hc, Option.bind_some] at h
          rw [updateAt?_cons_of_child? hc (ih h), ElementMap.update_eq_self hc]
          cases r
          rfl

theorem isSome_updateAt? (f : Resource -> Resource) (h : (r.navigate? a).isSome) :
    (r.updateAt? f a).isSome := by
  induction a generalizing r with
  | nil =>
      rfl
  | cons e rest ih =>
      cases hc : r.child? e with
      | none =>
          simp [navigate?, hc] at h
      | some c =>
          simp only [navigate?, hc, Option.bind_some] at h
          rcases Option.isSome_iff_exists.mp (ih h) with ⟨c', hc'⟩
          rw [updateAt?_cons_of_child? hc hc']
          rfl

theorem updateAt?_updateAt? (h : r.updateAt? f a = some r') (g : Resource -> Resource) :
    r'.updateAt? g a = r.updateAt? (fun c => g (f c)) a := by
  induction a generalizing r r' with
  | nil =>
      cases h
      rfl
  | cons e rest ih =>
      rcases updateAt?_cons_eq_some h with ⟨c, c', hc, hc', rfl⟩
      simp only [updateAt?, hc, child?_update_self hc, ih hc', Option.bind_eq_bind,
        Option.bind_some, ElementMap.update_update]

theorem updateAt?_child {e : PathElement} {c : Resource}
    (h : r.updateAt? (fun parent => parent.register e c) a = some r') (g : Resource -> Resource) :
    r'.updateAt? g (a.child e) = r.updateAt? (fun parent => parent.register e (g c)) a := by
  induction a generalizing r r' with
  | nil =>
      cases h
      simp [Address.child, updateAt?, child?, register, ElementMap.update_insert_self]
  | cons d rest ih =>
      rcases updateAt?_cons_eq_some h with ⟨b, b', hb, hb', rfl⟩
      have hbelow := ih hb'
      simp only [Address.child] at hbelow
      simp only [Address.child, List.cons_append, updateAt?, hb, child?_update_self hb, hbelow,
        Option.bind_eq_bind, Option.bind_some, ElementMap.update_update]

theorem child?_register_self (r : Resource) (e : PathElement) (c : Resource) :
    (r.register e c).child? e = some c :=
  ElementMap.get?_insert_self e c r.children

theorem navigate?_child (a : Address) (e : PathElement) (r : Resource) :
    r.navigate? (a.child e) = (r.navigate? a).bind (child? e) := by
  rw [Address.child, navigate?_append]
  cases r.navigate? a with
  | none => rfl
  | some c => cases h : c.child? e <;> simp [navigate?, h]

theorem isSome_navigate?_register {e : PathElement} {c : Resource} (hthere : (r.navigate? a).isSome)
    (h : r.updateAt? (fun parent => parent.register e c) a = some r') :
    (r'.navigate? (a.child e)).isSome := by
  rcases Option.isSome_iff_exists.mp hthere with ⟨parent, hparent⟩
  rw [navigate?_child, navigate?_of_updateAt? h, hparent]
  simp [child?_register_self]

def registerAll (pairs : List (PathElement × Resource)) (r : Resource) : Resource :=
  { r with children := ElementMap.insertAll pairs r.children }

theorem registerAll_nil (r : Resource) : r.registerAll [] = r := by
  cases r
  rfl

theorem registerAll_append (first second : List (PathElement × Resource)) (r : Resource) :
    r.registerAll (first ++ second) = (r.registerAll first).registerAll second := by
  simp [registerAll, ElementMap.insertAll]

/-!
# Trees in order
-/

/-- At every level the children are in the order of their elements, which are distinct. -/
inductive Ordered : Resource -> Prop where
  | node {model : Value} {children : List (PathElement × Resource)} :
      ElementMap.Ordered children -> (∀ pair ∈ children, Ordered pair.2) ->
      Ordered (.node model children)

theorem Ordered.children {model : Value} {children : List (PathElement × Resource)}
    (h : Ordered (.node model children)) : ElementMap.Ordered children := by
  cases h
  assumption

theorem Ordered.of_mem {model : Value} {children : List (PathElement × Resource)}
    (h : Ordered (.node model children)) {pair : PathElement × Resource}
    (hmem : pair ∈ children) : Ordered pair.2 := by
  cases h with
  | node _ hbelow => exact hbelow pair hmem

theorem ordered_ofModel (model : Value) : Ordered (ofModel model) :=
  .node ElementMap.ordered_nil fun _ hmem => nomatch hmem

theorem ordered_ofChildren {pairs : List (PathElement × Resource)}
    (h : ∀ pair ∈ pairs, Ordered pair.2) (model : Value) : Ordered (ofChildren model pairs) := by
  refine .node (ElementMap.ordered_insertAll ElementMap.ordered_nil pairs) ?_
  intro pair hpair
  rcases ElementMap.mem_insertAll hpair with hmem | hnone
  · exact h pair hmem
  · cases hnone

/-!
# Resources of a tree
-/

mutual

def listing (a : Address) : Resource -> List (Address × Value)
  | .node model children => (a, model) :: listingOfChildren a children

def listingOfChildren (a : Address) : List (PathElement × Resource) -> List (Address × Value)
  | [] => []
  | (e, c) :: rest => listing (a.child e) c ++ listingOfChildren a rest

end

theorem listingOfChildren_eq_flatMap (a : Address) (children : List (PathElement × Resource)) :
    listingOfChildren a children =
      children.flatMap fun pair => listing (a.child pair.1) pair.2 := by
  induction children with
  | nil => rfl
  | cons pair rest ih =>
      simp [listingOfChildren, ih]

mutual

theorem exists_append_of_mem_listing : (r : Resource) -> forall {a : Address} {x : Address × Value},
    x ∈ r.listing a -> exists b, x.1 = a ++ b
  | .node model children, a, x, hmem => by
      rcases List.mem_cons.mp hmem with rfl | hbelow
      · exact ⟨[], (List.append_nil a).symm⟩
      · exact exists_append_of_mem_listingOfChildren children hbelow

theorem exists_append_of_mem_listingOfChildren : (children : List (PathElement × Resource)) ->
    forall {a : Address} {x : Address × Value}, x ∈ listingOfChildren a children ->
      exists b, x.1 = a ++ b
  | [], _, _, hmem => nomatch hmem
  | (e, c) :: rest, a, x, hmem => by
      rcases List.mem_append.mp hmem with hhere | hrest
      · rcases exists_append_of_mem_listing c hhere with ⟨b, hb⟩
        exact ⟨e :: b, by simp [hb, Address.child]⟩
      · exact exists_append_of_mem_listingOfChildren rest hrest

end

theorem exists_cons_of_mem_listingOfChildren {children : List (PathElement × Resource)}
    {x : Address × Value} (hmem : x ∈ listingOfChildren a children) :
    exists e c b, (e, c) ∈ children ∧ x.1 = a ++ e :: b := by
  rw [listingOfChildren_eq_flatMap] at hmem
  rcases List.mem_flatMap.mp hmem with ⟨⟨e, c⟩, hpair, hx⟩
  rcases exists_append_of_mem_listing c hx with ⟨b, hb⟩
  rw [← Address.append_cons_eq_child] at hb
  exact ⟨e, c, b, hpair, hb⟩

mutual

theorem pairwise_listing : (r : Resource) -> r.Ordered -> forall a : Address,
    (r.listing a).Pairwise fun x y => x.1.compare y.1 = .lt
  | .node model children, hr, a => by
      apply List.pairwise_cons.mpr
      constructor
      · intro x hx
        rcases exists_cons_of_mem_listingOfChildren hx with ⟨e, _, b, _, hb⟩
        rw [hb]
        exact Address.compare_append_cons a e b
      · exact pairwise_listingOfChildren children hr.children (fun pair hpair => hr.of_mem hpair) a

theorem pairwise_listingOfChildren : (children : List (PathElement × Resource)) ->
    ElementMap.Ordered children -> (∀ pair ∈ children, pair.2.Ordered) -> forall a : Address,
    (listingOfChildren a children).Pairwise fun x y => x.1.compare y.1 = .lt
  | [], _, _, _ => List.Pairwise.nil
  | (e, c) :: rest, hordered, hbelow, a => by
      rcases List.pairwise_cons.mp hordered with ⟨hfirst, hrest⟩
      apply List.pairwise_append.mpr
      refine ⟨pairwise_listing c (hbelow (e, c) List.mem_cons_self) (a.child e),
        pairwise_listingOfChildren rest hrest
          (fun pair hpair => hbelow pair (List.mem_cons_of_mem _ hpair)) a, ?_⟩
      intro x hx y hy
      rcases exists_append_of_mem_listing c hx with ⟨b, hb⟩
      rcases exists_cons_of_mem_listingOfChildren hy with ⟨d, c', b', hpair, hb'⟩
      rw [hb, hb', ← Address.append_cons_eq_child]
      exact Address.compare_append_of_lt a (hfirst (d, c') hpair) b b'

end

mutual

theorem navigate?_of_mem_listing : forall (a : Address) (r : Resource), r.Ordered ->
    forall {x : Address} {model : Value}, (x, model) ∈ r.listing a ->
      exists b, x = a ++ b ∧ (r.navigate? b).map Resource.model = some model
  | a, .node own children, hr, x, model, hmem => by
      rcases List.mem_cons.mp hmem with hown | hbelow
      · cases hown
        exact ⟨[], (List.append_nil a).symm, rfl⟩
      · rcases navigate?_of_mem_listingOfChildren a children (fun pair hpair => hr.of_mem hpair)
          hbelow with ⟨e, c, b, hpair, rfl, hmodel⟩
        refine ⟨e :: b, rfl, ?_⟩
        have hchild : (Resource.node own children).child? e = some c :=
          ElementMap.get?_of_mem hr.children hpair
        simpa [navigate?, hchild] using hmodel

theorem navigate?_of_mem_listingOfChildren : forall (a : Address)
    (children : List (PathElement × Resource)), (∀ pair ∈ children, pair.2.Ordered) ->
    forall {x : Address} {model : Value}, (x, model) ∈ listingOfChildren a children ->
      exists e c b, (e, c) ∈ children ∧ x = a ++ e :: b ∧
        (c.navigate? b).map Resource.model = some model
  | a, [], _, x, model, hmem => nomatch hmem
  | a, (e, c) :: rest, hordered, x, model, hmem => by
      rcases List.mem_append.mp hmem with hhere | hrest
      · rcases navigate?_of_mem_listing (a.child e) c (hordered (e, c) List.mem_cons_self) hhere
          with ⟨b, rfl, hmodel⟩
        exact ⟨e, c, b, List.mem_cons_self, by simp [Address.child], hmodel⟩
      · rcases navigate?_of_mem_listingOfChildren a rest
          (fun pair hpair => hordered pair (List.mem_cons_of_mem _ hpair)) hrest
          with ⟨d, c', b, hpair, hx, hmodel⟩
        exact ⟨d, c', b, List.mem_cons_of_mem _ hpair, hx, hmodel⟩

end

end Resource
end MixedDomain
