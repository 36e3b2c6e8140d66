import MixedDomain.Proofs.Resource.Tree

/-!
# Changes of resources

## Kinds of changes

A resource is changed by writing its model, by changing the model in place, and by
registering and removing children.

## Order

All changes keep a tree in order, at the top and further down, as long as the
children that are registered are in order themselves.
-/

namespace MixedDomain
namespace Resource

/-- A change of the model of a resource or of its children. -/
inductive Change where
  | writeModel (model : Value)
  | updateModel (f : Value -> Value)
  | register (e : PathElement) (c : Resource)
  | remove (e : PathElement)

def Change.apply : Change -> Resource -> Resource
  | .writeModel model, r => r.withModel model
  | .updateModel f, r => r.withModel (f r.model)
  | .register e c, r => r.register e c
  | .remove e, r => Resource.remove e r

def Change.IsOrdered : Change -> Prop
  | .register _ c => c.Ordered
  | _ => True

/-!
# Trees that stay in order
-/

variable {a : Address} {e : PathElement} {r r' c : Resource}

theorem ordered_iff :
    r.Ordered ↔ ElementMap.Ordered r.children ∧ ∀ pair ∈ r.children, pair.2.Ordered := by
  rcases r with ⟨model, children⟩
  exact ⟨fun h => ⟨h.children, fun _ => h.of_mem⟩, fun h => .node h.1 h.2⟩

theorem Ordered.of_child? (h : r.Ordered) (hc : r.child? e = some c) : c.Ordered :=
  (ordered_iff.mp h).2 (e, c) (ElementMap.mem_of_get? hc)

theorem Ordered.of_navigate? (h : r.Ordered) (hc : r.navigate? a = some c) : c.Ordered := by
  induction a generalizing r with
  | nil =>
      cases hc
      exact h
  | cons e rest ih =>
      rcases Option.bind_eq_some_iff.mp hc with ⟨mid, hmid, hrest⟩
      exact ih (h.of_child? hmid) hrest

theorem Ordered.withModel (h : r.Ordered) (model : Value) : (r.withModel model).Ordered := by
  rcases ordered_iff.mp h with ⟨hchildren, hbelow⟩
  exact ordered_iff.mpr ⟨hchildren, hbelow⟩

theorem Ordered.register (h : r.Ordered) (e : PathElement) (hc : c.Ordered) :
    (r.register e c).Ordered := by
  rcases ordered_iff.mp h with ⟨hchildren, hbelow⟩
  refine ordered_iff.mpr ⟨ElementMap.ordered_insert hchildren e c, ?_⟩
  intro pair hpair
  rcases ElementMap.mem_insert hpair with rfl | hold
  · exact hc
  · exact hbelow pair hold

theorem Ordered.remove (h : r.Ordered) (e : PathElement) : (Resource.remove e r).Ordered := by
  rcases ordered_iff.mp h with ⟨hchildren, hbelow⟩
  refine ordered_iff.mpr ⟨ElementMap.ordered_erase hchildren e, ?_⟩
  exact fun pair hpair => hbelow pair ((ElementMap.erase_sublist e r.children).subset hpair)

theorem Ordered.change (h : r.Ordered) {change : Change} (hchange : change.IsOrdered) :
    (change.apply r).Ordered := by
  cases change with
  | writeModel model => exact h.withModel model
  | updateModel f => exact h.withModel (f r.model)
  | register e c => exact h.register e hchange
  | remove e => exact h.remove e

end Resource
end MixedDomain
