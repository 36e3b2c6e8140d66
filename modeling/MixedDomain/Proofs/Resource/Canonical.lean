import MixedDomain.Proofs.Resource.RoundTrip

/-!
# The canonical form of resources

## Making resources

A resource is made from one without children by changing models, by registering and
removing children, and by doing all this to resources further down.  Both forms of
resources have these operations, and the same way of making one leads to the same
resource in both.

## Equality

Resources are equal just if they have equal models and equal children at the same
elements.  Tidy resources in two levels are equal just if the resources that they
stand for are.
-/

namespace MixedDomain

/-- What resources of some form are made with. -/
structure Operations (form : Type) where
  ofModel : Value -> form
  updateModel : (Value -> Value) -> form -> form
  register : form -> PathElement -> form -> form
  remove : PathElement -> form -> form
  navigate? : Address -> form -> Option form
  replaceAt? : form -> Address -> form -> Option form

def Resource.operations : Operations Resource where
  ofModel := Resource.ofModel
  updateModel f r := r.withModel (f r.model)
  register := Resource.register
  remove := Resource.remove
  navigate? := Resource.navigate?
  replaceAt? c := Resource.updateAt? fun _ => c

def NestedResource.operations : Operations NestedResource where
  ofModel := NestedResource.ofModel
  updateModel f n := n.withModel (f n.model)
  register := NestedResource.register
  remove := NestedResource.remove
  navigate? := NestedResource.navigate?
  replaceAt? := NestedResource.replaceAt?

/-- A way of making a resource.  What is done to a resource further down, in place, is to replace
it by what is made of it. -/
inductive Making where
  | ofModel (model : Value)
  | updateModel (f : Value -> Value) (whole : Making)
  | register (whole : Making) (e : PathElement) (child : Making)
  | remove (e : PathElement) (whole : Making)
  | descendant (a : Address) (whole : Making)
  | replaceAt (part : Making) (a : Address) (whole : Making)

/-- The resource that is made, unless there is no resource at one of the addresses. -/
def Making.run {form : Type} (ops : Operations form) : Making -> Option form
  | .ofModel model => some (ops.ofModel model)
  | .updateModel f whole => (whole.run ops).map (ops.updateModel f)
  | .register whole e child => do
      let r ← whole.run ops
      let c ← child.run ops
      return ops.register r e c
  | .remove e whole => (whole.run ops).map (ops.remove e)
  | .descendant a whole => (whole.run ops).bind (ops.navigate? a)
  | .replaceAt part a whole => do
      let c ← part.run ops
      let r ← whole.run ops
      ops.replaceAt? c a r

variable {n n' : NestedResource} {r r' : Resource} {a : Address}

namespace NestedResource

/-- Every way of making a resource leads to a tidy one in two levels, and to the resource that it
stands for. -/
theorem represents_run (making : Making) :
    Option.Rel Represents (making.run operations) (making.run Resource.operations) := by
  induction making with
  | ofModel model => exact .some (.ofModel model)
  | updateModel f whole ih =>
      refine Option.rel_map ih fun n r h => ?_
      show Represents (n.withModel (f n.model)) (r.withModel (f r.model))
      rw [h.model]
      exact h.withModel (f r.model)
  | register whole e child ihWhole ihChild =>
      exact Option.rel_bind ihWhole fun _ _ h => Option.rel_bind ihChild fun _ _ hc =>
        .some (h.register e hc)
  | remove e whole ih => exact Option.rel_map ih fun _ _ h => h.remove e
  | descendant a whole ih => exact Option.rel_bind ih fun _ _ h => h.rel_navigate? a
  | replaceAt part a whole ihPart ihWhole =>
      exact Option.rel_bind ihPart fun _ _ hc => Option.rel_bind ihWhole fun _ _ h =>
        h.rel_replaceAt? a hc

end NestedResource

/-- Whether there is a way of making a resource. -/
def Resource.IsMade (r : Resource) : Prop :=
  exists making : Making, making.run operations = some r

theorem Resource.IsMade.exists_represents (h : r.IsMade) :
    exists n, NestedResource.Represents n r := by
  rcases h with ⟨making, hmaking⟩
  have hboth := NestedResource.represents_run making
  rw [hmaking] at hboth
  generalize making.run NestedResource.operations = made at hboth
  cases hboth with
  | some hn => exact ⟨_, hn⟩

/-- What theorems about sending resources ask of their children holds of all resources there are. -/
theorem Resource.IsMade.ordered (h : r.IsMade) : r.Ordered := by
  rcases h.exists_represents with ⟨n, htidy, rfl⟩
  exact htidy.ordered_flat

/-!
# Equality
-/

namespace Resource

theorem eqvChildren_iff {children others : List (PathElement × Resource)} :
    eqvChildren children others = true ↔
      List.Forall₂ (List.PairRel fun c c' => eqv c c' = true) children others := by
  induction children generalizing others with
  | nil => cases others <;> simp [eqvChildren]
  | cons pair rest ih =>
      cases others with
      | nil => simp [eqvChildren]
      | cons other others => simp [eqvChildren, List.PairRel, ih]

/-- Resources are equal just if their models are and they have equal children at the same
elements. -/
theorem eqv_iff_child? (h : ElementMap.Ordered r.children) (h' : ElementMap.Ordered r'.children) :
    (r == r') = true ↔ (r.model == r'.model) = true ∧
      forall e, Option.Rel (fun c c' => (c == c') = true) (r.child? e) (r'.child? e) := by
  have hchildren := ElementMap.forall₂_iff_rel_get? (r := fun c c' => eqv c c' = true) h h'
  rw [← eqvChildren_iff] at hchildren
  cases r
  cases r'
  show eqv _ _ = true ↔ _
  rw [eqv, Bool.and_eq_true, hchildren]
  rfl

end Resource

namespace NestedResource

theorem eqvNames_iff {named others : List (String × NestedResource)} :
    eqvNames named others = true ↔
      List.Forall₂ (List.PairRel fun c c' => eqv c c' = true) named others := by
  induction named generalizing others with
  | nil => cases others <;> simp [eqvNames]
  | cons entry rest ih =>
      cases others with
      | nil => simp [eqvNames]
      | cons other others => simp [eqvNames, List.PairRel, ih]

theorem eqvKinds_iff {kinds others : List (String × List (String × NestedResource))} :
    eqvKinds kinds others = true ↔
      List.Forall₂ (List.PairRel (List.Forall₂ (List.PairRel fun c c' => eqv c c' = true))) kinds
        others := by
  induction kinds generalizing others with
  | nil => cases others <;> simp [eqvKinds]
  | cons entry rest ih =>
      cases others with
      | nil => simp [eqvKinds]
      | cons other others => simp [eqvKinds, eqvNames_iff, List.PairRel, ih]

theorem eqv_iff_child? (h : n.Tidy) (h' : n'.Tidy) :
    (n == n') = true ↔ (n.model == n'.model) = true ∧
      forall e, Option.Rel (fun c c' => (c == c') = true) (n.child? e) (n'.child? e) := by
  have hkinds := KindMap.forall₂_iff_rel_get? (r := fun c c' => eqv c c' = true) h.kinds h'.kinds
  rw [← eqvKinds_iff] at hkinds
  cases n
  cases n'
  show eqv _ _ = true ↔ _
  rw [eqv, Bool.and_eq_true, hkinds]
  rfl

/-- Tidy resources in two levels are equal just if they stand for equal resources. -/
theorem beq_flat (h : n.Tidy) (h' : n'.Tidy) : (n == n') = (n.flat == n'.flat) := by
  induction h generalizing n' with
  | @node model kinds here below ih =>
      have hn : Tidy (.node model kinds) := .node here below
      -- Both equalities look at the elements one by one, since no kind can be there without names.
      rw [Bool.eq_iff_iff, eqv_iff_child? hn h',
        Resource.eqv_iff_child? (ordered_children_flat hn) (ordered_children_flat h'), model_flat,
        model_flat]
      refine and_congr_right fun _ => forall_congr' fun e => ?_
      rw [child?_flat hn, child?_flat h', Option.rel_map_iff]
      refine Option.rel_congr fun c c' hc hc' => ?_
      rw [ih e c hc (h'.of_child? hc')]

/-!
# Resources that are made
-/

theorem Represents.childKinds (h : n.Represents r) : r.childKinds = n.childKinds := by
  rcases h with ⟨htidy, rfl⟩
  rw [Resource.childKinds, NestedResource.childKinds, ← KindMap.kinds_flat htidy.kinds, children_flat]
  simp only [ElementMap.kinds, ElementMap.elements, List.map_map]
  rfl

end NestedResource

namespace Resource

theorem mem_childKinds (kind : String) (r : Resource) :
    kind ∈ r.childKinds ↔ exists name, (r.child? ⟨kind, name⟩).isSome := by
  simp only [childKinds, ElementMap.kinds, List.mem_eraseDups, List.mem_map, child?,
    ElementMap.isSome_get?_iff]
  constructor
  · rintro ⟨e, he, rfl⟩
    exact ⟨e.value, he⟩
  · rintro ⟨name, hname⟩
    exact ⟨⟨kind, name⟩, hname, rfl⟩

theorem isMade_of_ofValue {v : Value} (h : ofValue v = .ok r) : r.IsMade := by
  have hp : HoldsUpwards IsMade := by
    intro model pairs hpairs
    have hfold : forall before : Resource, before.IsMade -> (before.registerAll pairs).IsMade := by
      induction pairs with
      | nil => exact fun before hbefore => before.registerAll_nil.symm ▸ hbefore
      | cons pair rest ih =>
          rintro before ⟨making, hmaking⟩
          rcases List.forall_mem_cons.mp hpairs with ⟨⟨child, hchild⟩, hrest⟩
          refine ih hrest (before.register pair.1 pair.2) ⟨.register making pair.1 child, ?_⟩
          rw [Making.run, hmaking, hchild]
          rfl
    exact hfold (ofModel model) ⟨.ofModel model, rfl⟩
  exact holds_ofValue hp v h

theorem IsMade.updateAt? {f : Resource -> Resource}
    (hf : forall c : Resource, c.IsMade -> (f c).IsMade)
    (hr : r.IsMade) (h : r.updateAt? f a = some r') : r'.IsMade := by
  rcases hr with ⟨making, hmaking⟩
  rw [updateAt?_eq_bind] at h
  rcases Option.bind_eq_some_iff.mp h with ⟨c, hc, hr'⟩
  have hpart : c.IsMade := ⟨.descendant a making, by rw [Making.run, hmaking]; exact hc⟩
  rcases hf c hpart with ⟨part, hmade⟩
  refine ⟨.replaceAt part a making, ?_⟩
  rw [Making.run, hmade, hmaking]
  exact hr'

/-- A resource that is read, and one that is changed further down in place, can be made.  Making a
resource leads in two levels to one in which no kind is without children, at any depth, and which
stands for the resource that is made, with the same kinds and the same equality.  The kinds of a
resource that is made are those that it has a child of, and reading its value gives it back.  Two of
them are equal just if they have equal models and equal children at the same elements. -/
theorem canonical_of_isMade :
    (forall v r, ofValue v = .ok r -> r.IsMade) ∧
      (forall (f : Resource -> Resource) a r r', (forall c : Resource, c.IsMade -> (f c).IsMade) ->
        IsMade r -> r.updateAt? f a = some r' -> r'.IsMade) ∧
      (forall making : Making, Option.Rel NestedResource.Represents
        (making.run NestedResource.operations) (making.run operations)) ∧
      (forall n n' r r', NestedResource.Represents n r -> NestedResource.Represents n' r' ->
        n.childKinds = r.childKinds ∧ (n == n') = (r == r')) ∧
      (forall r : Resource, r.IsMade ->
        (forall kind, kind ∈ r.childKinds ↔ exists name, (r.child? ⟨kind, name⟩).isSome) ∧
          ofValue r.toValue = .ok r) ∧
      forall r r' : Resource, r.IsMade -> r'.IsMade ->
        ((r == r') = true ↔ (r.model == r'.model) = true ∧
          forall e, Option.Rel (fun c c' => (c == c') = true) (r.child? e) (r'.child? e)) := by
  refine ⟨fun _ _ => isMade_of_ofValue, fun _ _ _ _ hf hr h => hr.updateAt? hf h,
    NestedResource.represents_run, ?_, ?_, ?_⟩
  · intro n n' r r' h h'
    refine ⟨h.childKinds.symm, ?_⟩
    rw [NestedResource.beq_flat h.1 h'.1, h.2, h'.2]
  · intro r hr
    rcases hr.exists_represents with ⟨n, hn⟩
    refine ⟨fun kind => mem_childKinds kind r, ?_⟩
    rw [← hn.2]
    exact ofValue_toValue_flat hn.1
  · intro r r' hr hr'
    rcases hr.exists_represents with ⟨n, hn⟩
    rcases hr'.exists_represents with ⟨n', hn'⟩
    exact eqv_iff_child? hn.children hn'.children

/-- A server whose only host has been removed again, and whose web subsystem has been changed. -/
def changedServer : Making :=
  let host : PathElement := ⟨"host", "default"⟩
  let web : PathElement := ⟨"subsystem", "web"⟩
  let whole := Making.register (.ofModel (.string "server")) host (.ofModel .undefined)
  let whole := Making.register whole web (.ofModel (.int 1))
  .remove host (.replaceAt (.updateModel (fun _ => .int 2) (.descendant [web] whole)) [web] whole)

/-- No host is left, and what has been made is read again. -/
theorem canonical_of_changedServer : exists r, changedServer.run operations = some r ∧
    r.childKinds = ["subsystem"] ∧ ofValue r.toValue = .ok r :=
  ⟨_, rfl, by decide, (canonical_of_isMade.2.2.2.2.1 _ ⟨changedServer, rfl⟩).2⟩

end Resource
end MixedDomain
