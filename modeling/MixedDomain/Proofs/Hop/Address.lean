import MixedDomain.Hop.Resource
import MixedDomain.Proofs.Hop.BuiltIn

/-!
# Addresses in built-in hops

## Withholding

What withholds a child is what withholds its parent, and otherwise the description
of the child itself.

## Addresses on the target

A built-in hop moves a child to some element below the place of its parent.  From
an address without description on, everything keeps its address.
-/

namespace MixedDomain

theorem Address.exists_eq_child {a : Address} (ha : a ≠ []) :
    exists parent e, a = Address.child parent e := by
  exact ⟨a.parent, a.getLast ha, (List.dropLast_concat_getLast ha).symm⟩

theorem Address.child_ne_nil (a : Address) (e : PathElement) : a.child e ≠ [] := by
  simp [child]

namespace Hop

variable {h : Hop} {a : Address} {e : PathElement} {c : Context}

def withholding (h : Hop) (a : Address) (c : Context) : Withholding :=
  withheldAlong a c (h.descriptions.along a)

/-- Whether the description at some strict beginning of an address withholds what it is about. -/
def isWithheldAbove (h : Hop) (a : Address) (c : Context) : Bool :=
  a.inits.dropLast.any fun b => (h.description? b).any fun d => d.withholding.decide b c ≠ .never

def elementOnTarget (h : Hop) (a : Address) (e : PathElement) : PathElement :=
  (h.targetOf (a.child e)).getLast?.getD e

/-!
# Descriptions
-/

theorem ne_nil_of_description? (hb : h.IsBuiltIn) {d : ResourceDescription}
    (hd : h.description? a = some d) : a ≠ [] := by
  rintro rfl
  rw [description?, Trie.get?, Trie.node?_nil, Option.bind_some, hb.root] at hd
  cases hd

theorem isBuiltIn_of_description? (hb : h.IsBuiltIn) (ha : a ≠ []) {d : ResourceDescription}
    (hd : h.description? a = some d) : d.IsBuiltIn := by
  rcases Address.exists_eq_child ha with ⟨parent, e, rfl⟩
  rcases Option.bind_eq_some_iff.mp hd with ⟨n, hn, hhere⟩
  rcases hb.below.here?_of_node? hn with ⟨found, hfound, hbuilt⟩
  rw [hfound] at hhere
  cases hhere
  exact hbuilt

theorem node?_eq_none_of_description? (hb : h.IsBuiltIn) (ha : a ≠ [])
    (hd : h.description? a = none) : h.descriptions.node? a = none := by
  rcases Address.exists_eq_child ha with ⟨parent, e, rfl⟩
  cases hn : h.descriptions.node? (parent.child e) with
  | none => rfl
  | some n =>
      rcases hb.below.here?_of_node? hn with ⟨found, hfound, _⟩
      simp [description?, Trie.get?, hn, hfound] at hd

theorem description?_append_eq_none (hb : h.IsBuiltIn) (ha : a ≠ [])
    (hd : h.description? a = none) (b : Address) : h.description? (a ++ b) = none := by
  have hnode := node?_eq_none_of_description? hb ha hd
  simp [description?, Trie.get?, Trie.node?_append, hnode]

/-!
# Withholding
-/

theorem isBuiltIn_of_mem_along (hb : h.IsBuiltIn) {node : Nat × ResourceDescription}
    (hnode : node ∈ h.descriptions.along a) : node.2.IsBuiltIn := by
  rcases List.mem_append.mp hnode with hroot | hbelow
  · simp [hb.root] at hroot
  · exact hb.below.of_mem_alongFrom hbelow

theorem withheldAlong_append (first second : List (Nat × ResourceDescription)) :
    withheldAlong a c (first ++ second) =
      match withheldAlong a c first with
      | .never => withheldAlong a c second
      | w => w := by
  induction first with
  | nil =>
      rfl
  | cons node rest ih =>
      cases hw : node.2.withholding.decide (a.slice 0 node.1) c <;>
        simp [withheldAlong, hw, ih]

theorem withheldAlong_congr {nodes : List (Nat × ResourceDescription)}
    (hfixed : ∀ node ∈ nodes, exists w, node.2.withholding = .fixed w) (a a' : Address)
    (c c' : Context) : withheldAlong a c nodes = withheldAlong a' c' nodes := by
  induction nodes with
  | nil =>
      rfl
  | cons node rest ih =>
      rcases hfixed node List.mem_cons_self with ⟨w, hw⟩
      have hrest := ih fun other hother => hfixed other (List.mem_cons_of_mem node hother)
      simp [withheldAlong, hw, WithholdingPolicy.decide, hrest]

theorem withheldAlong_eq_find? {beginnings : List Address} (hbeginning : ∀ b ∈ beginnings, b <+: a) :
    withheldAlong a c (beginnings.filterMap fun b =>
        (h.description? b).map fun d => (b.length, d)) =
      ((beginnings.filterMap fun b => (h.description? b).map fun d => d.withholding.decide b c).find?
        fun withholding => withholding ≠ .never).getD .never := by
  induction beginnings with
  | nil =>
      rfl
  | cons b rest ih =>
      have hrest := ih fun other hother => hbeginning other (List.mem_cons_of_mem b hother)
      cases hd : h.description? b with
      | none => simpa [hd] using hrest
      | some d =>
          have hslice : a.slice 0 b.length = b := by
            rw [Address.slice_zero]
            exact (List.prefix_iff_eq_take.mp (hbeginning b List.mem_cons_self)).symm
          cases hw : d.withholding.decide b c with
          | never => simpa [withheldAlong, hd, hslice, hw] using hrest
          | silent => simp [withheldAlong, hd, hslice, hw]
          | rejectAndWarn => simp [withheldAlong, hd, hslice, hw]

theorem getD_find?_eq_never_iff (ways : List Withholding) :
    (ways.find? fun withholding => withholding ≠ .never).getD .never = .never ↔
      ∀ withholding ∈ ways, withholding = .never := by
  induction ways with
  | nil => simp
  | cons w rest ih =>
      cases w with
      | never => simpa using ih
      | silent => simp
      | rejectAndWarn => simp

theorem above_child (h : Hop) (a : Address) (e : PathElement) :
    h.above (a.child e) = h.descriptions.along a := by
  have hlength : (a.child e).length = a.length + 1 := by
    simp [Address.child]
  have hown : (((h.descriptions.get? (a.child e)).map fun d => (a.length + 1, d)).toList.filter
      fun node => node.1 != a.length + 1) = [] := by
    cases h.descriptions.get? (a.child e) <;> simp
  have habove : ((h.descriptions.along a).filter fun node => node.1 != a.length + 1)
      = h.descriptions.along a := by
    apply List.filter_eq_self.mpr
    intro node hnode
    have hle := Trie.depth_le_of_mem_along hnode
    exact bne_iff_ne.mpr (by omega)
  rw [above, Trie.along_child, hlength, List.filter_append, hown, habove, List.append_nil]

/-- Nothing above an address withholds it just if no strict beginning of it is withheld. -/
theorem isWithheldAbove_eq_false_iff (ha : a ≠ []) :
    h.isWithheldAbove a c = false ↔ withheldAlong a c (h.above a) = .never := by
  rcases Address.exists_eq_child ha with ⟨parent, e, rfl⟩
  have hbeginnings : (parent.child e).inits.dropLast = parent.inits := by
    simp [Address.child, List.inits_append]
  have hbeginning : ∀ b ∈ parent.inits, b <+: parent.child e := fun b hb =>
    ((List.mem_inits b parent).mp hb).trans (List.prefix_append parent [e])
  have habove : withheldAlong (parent.child e) c (h.above (parent.child e)) =
      ((parent.inits.filterMap fun b => (h.description? b).map fun d =>
        d.withholding.decide b c).find? fun withholding => withholding ≠ .never).getD .never := by
    rw [above_child, Trie.along_eq_filterMap_inits]
    exact withheldAlong_eq_find? hbeginning
  rw [habove, getD_find?_eq_never_iff, isWithheldAbove, hbeginnings]
  simp only [List.any_eq_false, List.mem_filterMap, Option.map_eq_some_iff]
  constructor
  · rintro hall w ⟨b, hb, d, hd, rfl⟩
    simpa [hd] using hall b hb
  · intro hall b hb
    cases hd : h.description? b with
    | none => simp
    | some d => simpa using hall _ ⟨b, hb, d, hd, rfl⟩

theorem withheldAlong_above_child (hb : h.IsBuiltIn) :
    withheldAlong (a.child e) c (h.above (a.child e)) = h.withholding a c := by
  rw [above_child]
  exact withheldAlong_congr (fun _ hnode => (isBuiltIn_of_mem_along hb hnode).withholding) _ _ _ _

theorem withholding_child (hb : h.IsBuiltIn) :
    h.withholding (a.child e) c =
      match h.withholding a c with
      | .never =>
          ((h.description? (a.child e)).map fun d => d.withholding.decide (a.child e) c).getD .never
      | w => w := by
  have habove : withheldAlong (a.child e) c (h.descriptions.along a) = h.withholding a c :=
    withheldAlong_congr (fun _ hnode => (isBuiltIn_of_mem_along hb hnode).withholding) _ _ _ _
  have hslice : (a.child e).slice 0 (a.length + 1) = a.child e := by
    rw [Address.slice_zero]
    exact List.take_of_length_le (by simp [Address.child])
  have hown : withheldAlong (a.child e) c
      ((h.description? (a.child e)).map fun d => (a.length + 1, d)).toList =
        ((h.description? (a.child e)).map fun d =>
          d.withholding.decide (a.child e) c).getD .never := by
    cases h.description? (a.child e) with
    | none => rfl
    | some d => cases hw : d.withholding.decide (a.child e) c <;> simp [withheldAlong, hslice, hw]
  rw [withholding, Trie.along_child, withheldAlong_append, habove, ← hown]
  rfl

theorem withholding_eq_above (hb : h.IsBuiltIn) (ha : a ≠ []) :
    h.withholding a c =
      match withheldAlong a c (h.above a) with
      | .never => ((h.description? a).map fun d => d.withholding.decide a c).getD .never
      | w => w := by
  rcases Address.exists_eq_child ha with ⟨parent, e, rfl⟩
  rw [withholding_child hb, withheldAlong_above_child hb]

theorem withholding_fresh (hb : h.IsBuiltIn) {c' : Context} :
    h.withholding a c = h.withholding a c' :=
  withheldAlong_congr (fun _ hnode => (isBuiltIn_of_mem_along hb hnode).withholding) _ _ _ _

theorem withholding_append_of_undescribed (hb : h.IsBuiltIn) (ha : a ≠ [])
    (hd : h.description? a = none) (b : Address) :
    h.withholding (a ++ b) c = h.withholding a c := by
  induction b generalizing a with
  | nil =>
      rw [List.append_nil]
  | cons e rest ih =>
      have hchild : h.description? (a.child e) = none := description?_append_eq_none hb ha hd [e]
      rw [Address.append_cons_eq_child, ih (Address.child_ne_nil a e) hchild,
        withholding_child hb, hchild]
      cases h.withholding a c <;> rfl

theorem withholding_append_of_withheld (hb : h.IsBuiltIn) (hwithheld : h.withholding a c ≠ .never)
    (b : Address) : h.withholding (a ++ b) c ≠ .never := by
  induction b generalizing a with
  | nil =>
      rw [List.append_nil]
      exact hwithheld
  | cons e rest ih =>
      have hchild : h.withholding (a.child e) c ≠ .never := by
        rw [withholding_child hb]
        cases hw : h.withholding a c with
        | never => exact absurd hw hwithheld
        | silent => simp
        | rejectAndWarn => simp
      rw [Address.append_cons_eq_child]
      exact ih hchild

/-!
# Addresses on the target
-/

theorem targetBelow_eq_child {d : ResourceDescription} (hd : d.IsBuiltIn) (e : PathElement)
    (parent : Address) : exists e', d.targetBelow e parent = parent.child e' := by
  unfold ResourceDescription.targetBelow
  cases hr : d.redirection? with
  | none => exact ⟨e, rfl⟩
  | some redirection =>
      rcases hd.redirection redirection hr with ⟨swap, rfl⟩
      exact ⟨_, rfl⟩

theorem targetFrom_append_singleton {t : Trie ResourceDescription}
    (ht : t.Filled ResourceDescription.IsBuiltIn) (a : Address) (e : PathElement)
    (transformed : Address) :
    exists e', targetFrom (a ++ [e]) t transformed = (targetFrom a t transformed).child e' := by
  induction a generalizing t transformed with
  | nil =>
      cases hchild : t.child? e with
      | none => exact ⟨e, by simp [targetFrom, hchild, Address.child]⟩
      | some next =>
          rcases Trie.mem_of_child? hchild with ⟨_, hmem⟩
          rcases ht.here?_of_mem hmem with ⟨d, hd : next.here? = some d, hbuilt⟩
          rcases targetBelow_eq_child hbuilt e transformed with ⟨e', he'⟩
          exact ⟨e', by simp [targetFrom, hchild, hd, he']⟩
  | cons first rest ih =>
      cases hchild : t.child? first with
      | none => exact ⟨e, by simp [targetFrom, hchild, Address.child]⟩
      | some next =>
          rcases Trie.mem_of_child? hchild with ⟨_, hmem⟩
          rcases ht.here?_of_mem hmem with ⟨d, hd : next.here? = some d, _⟩
          rcases ih (ht.of_mem hmem) (d.targetBelow first transformed) with ⟨e', he'⟩
          exact ⟨e', by simp [targetFrom, hchild, hd, he']⟩

theorem targetOf_child (hb : h.IsBuiltIn) (a : Address) (e : PathElement) :
    h.targetOf (a.child e) = (h.targetOf a).child (h.elementOnTarget a e) := by
  rcases targetFrom_append_singleton hb.below a e Address.root with ⟨e', he'⟩
  have htarget : h.targetOf (a.child e) = (h.targetOf a).child e' := he'
  have helement : h.elementOnTarget a e = e' := by
    rw [elementOnTarget, htarget]
    simp [Address.child]
  rw [htarget, helement]

theorem targetFrom_append_of_node? {t : Trie ResourceDescription} (hnode : t.node? a = none)
    (b transformed : Address) :
    targetFrom (a ++ b) t transformed = targetFrom a t transformed ++ b := by
  induction a generalizing t transformed with
  | nil =>
      cases hnode
  | cons e rest ih =>
      cases hchild : t.child? e with
      | none => simp [targetFrom, hchild]
      | some next =>
          have hnext : next.node? rest = none := by
            simpa [Trie.node?, hchild] using hnode
          cases hhere : next.here? <;> simp [targetFrom, hchild, hhere, ih hnext]

theorem targetOf_append_of_undescribed (hb : h.IsBuiltIn) (ha : a ≠ [])
    (hd : h.description? a = none) (b : Address) : h.targetOf (a ++ b) = h.targetOf a ++ b :=
  targetFrom_append_of_node? (node?_eq_none_of_description? hb ha hd) b Address.root

theorem elementOnTarget_of_undescribed (hb : h.IsBuiltIn) (ha : a ≠ [])
    (hd : h.description? a = none) (e : PathElement) : h.elementOnTarget a e = e := by
  have htarget := targetOf_append_of_undescribed hb ha hd [e]
  simp [elementOnTarget, Address.child, htarget]

end Hop
end MixedDomain
