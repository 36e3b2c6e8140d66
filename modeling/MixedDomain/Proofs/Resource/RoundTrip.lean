import MixedDomain.Proofs.Resource.Encoding
import MixedDomain.Proofs.Resource.Nested

/-!
# Reading resources that have been written

## Writing

The children of a resource are written one after the other, each into the object of
its kind.  For a tidy resource in two levels this makes one object for each kind, in
the same order, with one entry for each name.

## Reading

These objects are read kind by kind and name by name, which gives the children in
the order in which they have been.
-/

namespace MixedDomain
namespace Resource

variable {item : Type} {map : List (String × List (String × item))} {kind name : String}

/-- The object of a kind, which has a value for each name. -/
def objectOfNames (f : item -> Value) (named : List (String × item)) : Value :=
  .object (named.map fun entry => (entry.1, f entry.2))

def objectsOfKinds (f : item -> Value) (map : List (String × List (String × item))) :
    List (String × Value) :=
  map.map fun entry => (entry.1, objectOfNames f entry.2)

/-!
# Writing
-/

theorem childValues_eq (children : List (PathElement × Resource)) :
    childValues children = children.map fun pair => (pair.1, pair.2.toValue) := by
  induction children with
  | nil => rfl
  | cons pair rest ih => rw [childValues, ih, List.map_cons]

section

variable {before : List (String × Value)} {written : List (String × Value)}

theorem addChildValue_first (hkind : kind ∉ Entries.keys before) (name : String) (value : Value) :
    addChildValue before (⟨kind, name⟩, value) = before ++ [(kind, .object [(name, value)])] := by
  have hnone : Entries.get? kind before = none := (Entries.get?_eq_none_iff kind before).mpr hkind
  have hinsert := Entries.insert_append hkind (.object [(name, value)]) []
  rw [List.append_nil] at hinsert
  simpa [addChildValue, hnone, Value.emptyObject, Value.put, Entries.insert] using hinsert

theorem addChildValue_next (hkind : kind ∉ Entries.keys before)
    (hname : name ∉ Entries.keys written) (value : Value) :
    addChildValue (before ++ [(kind, .object written)]) (⟨kind, name⟩, value) =
      before ++ [(kind, .object (written ++ [(name, value)]))] := by
  have hinsert := Entries.insert_append hname value []
  rw [List.append_nil] at hinsert
  simp [addChildValue, Entries.get?_append_of_not_mem hkind, Entries.insert_append hkind,
    Entries.get?, Entries.insert, Value.put, hinsert]

theorem foldl_addChildValue_names {f : item -> Value} {named : List (String × item)}
    (hkind : kind ∉ Entries.keys before)
    (hdistinct : (Entries.keys written ++ Entries.keys named).Nodup) :
    ((KindMap.flatNames kind named).map fun pair => (pair.1, f pair.2)).foldl addChildValue
        (before ++ [(kind, .object written)]) =
      before ++ [(kind, .object (written ++ named.map fun entry => (entry.1, f entry.2)))] := by
  induction named generalizing written with
  | nil => simp [KindMap.flatNames]
  | cons entry rest ih =>
      have hname : entry.1 ∉ Entries.keys written := fun hmem =>
        (List.nodup_append.mp hdistinct).2.2 _ hmem _ List.mem_cons_self rfl
      have hrest : (Entries.keys (written ++ [(entry.1, f entry.2)]) ++ Entries.keys rest).Nodup := by
        simpa [Entries.keys] using hdistinct
      have hbelow := ih hrest
      simp only [KindMap.flatNames] at hbelow
      simp only [KindMap.flatNames, List.map_cons, List.foldl_cons,
        addChildValue_next hkind hname, hbelow, List.append_assoc, List.singleton_append]

theorem foldl_addChildValue {f : item -> Value} (h : KindMap.Tidy map)
    (before : List (String × Value))
    (hbefore : ∀ kind ∈ Entries.keys map, kind ∉ Entries.keys before) :
    ((KindMap.flat map).map fun pair => (pair.1, f pair.2)).foldl addChildValue before =
      before ++ objectsOfKinds f map := by
  induction map generalizing before with
  | nil => simp [KindMap.flat, objectsOfKinds]
  | cons entry rest ih =>
      rcases entry with ⟨kind, named⟩
      rcases List.forall_mem_cons.mp hbefore with ⟨hkind, hothers⟩
      cases named with
      | nil => exact absurd rfl (h.filled _ List.mem_cons_self)
      | cons first others =>
          have hnames : (Entries.keys [(first.1, f first.2)] ++ Entries.keys others).Nodup :=
            (h.names _ List.mem_cons_self).distinct
          have hfirst := foldl_addChildValue_names (f := f) hkind hnames
          have hrest : ∀ other ∈ Entries.keys rest,
              other ∉ Entries.keys (before ++ [(kind, objectOfNames f (first :: others))]) := by
            intro other hother hmem
            have hne : other ≠ kind := by
              rintro rfl
              exact (List.nodup_cons.mp h.distinct).1 hother
            simp only [Entries.keys, List.map_append, List.mem_append, List.map_cons, List.map_nil,
              List.mem_singleton, hne, or_false] at hmem
            exact hothers other hother hmem
          have hwritten : ((KindMap.flatNames kind (first :: others)).map
                fun pair => (pair.1, f pair.2)).foldl addChildValue before =
              before ++ [(kind, objectOfNames f (first :: others))] := by
            rw [KindMap.flatNames, List.map_cons, List.map_cons, List.foldl_cons,
              addChildValue_first hkind]
            exact hfirst
          rw [KindMap.flat_cons, List.map_append, List.foldl_append, hwritten, ih h.of_cons _ hrest,
            List.append_assoc]
          rfl

end

/-!
# Reading
-/

section

variable {f : item -> Value} {g : item -> Resource}

theorem childrenOfNamed_objectOfNames {named : List (String × item)}
    (h : ∀ entry ∈ named, ofValue (f entry.2) = .ok (g entry.2)) (kind : String) :
    childrenOfNamed kind (objectOfNames f named) =
      .ok ((KindMap.flatNames kind named).map fun pair => (pair.1, g pair.2)) := by
  rw [objectOfNames, childrenOfNamed]
  induction named with
  | nil => rfl
  | cons entry rest ih =>
      rcases List.forall_mem_cons.mp h with ⟨hfirst, hrest⟩
      rw [List.map_cons, childrenOfNames, hfirst, ih hrest]
      rfl

theorem childrenOfKinds_objectsOfKinds
    (h : ∀ entry ∈ map, ∀ named ∈ entry.2, ofValue (f named.2) = .ok (g named.2)) :
    childrenOfKinds (objectsOfKinds f map) =
      .ok ((KindMap.flat map).map fun pair => (pair.1, g pair.2)) := by
  induction map with
  | nil => rfl
  | cons entry rest ih =>
      rcases List.forall_mem_cons.mp h with ⟨hfirst, hrest⟩
      have hothers := ih hrest
      rw [objectsOfKinds] at hothers
      rw [objectsOfKinds, List.map_cons, childrenOfKinds, childrenOfNamed_objectOfNames hfirst,
        hothers, KindMap.flat_cons, List.map_append]
      rfl

end

theorem ofValue_valueOfParts {children : List (PathElement × Value)}
    {pairs : List (PathElement × Resource)} (model : Value)
    (h : childrenOfKinds (children.foldl addChildValue []) = .ok pairs) :
    ofValue (valueOfParts model children) = .ok (ofChildren model pairs) := by
  have hkey : modelKey ≠ childrenKey := by
    decide
  unfold valueOfParts
  by_cases hempty : children.isEmpty = true
  · rw [List.isEmpty_iff.mp hempty] at h
    cases h
    rw [if_pos hempty, ofValue, childrenOfEntries, if_neg hkey]
    rfl
  · rw [if_neg hempty, ofValue, childrenOfEntries, if_neg hkey, childrenOfEntries, if_pos rfl,
      childrenOfValue, h]
    rfl

theorem ofValue_toValue_flat {n : NestedResource} (h : n.Tidy) :
    ofValue n.flat.toValue = .ok n.flat := by
  induction h with
  | @node model kinds here below ih =>
      have hread : ∀ entry ∈ kinds, ∀ named ∈ entry.2,
          ofValue named.2.flat.toValue = .ok named.2.flat :=
        fun entry hentry named hnamed => ih _ _ (KindMap.get?_of_mem here hentry hnamed)
      have hchildren : childrenOfKinds ((childValues (NestedResource.flatKinds kinds)).foldl
            addChildValue []) = .ok (NestedResource.flatKinds kinds) := by
        have hwritten := foldl_addChildValue (f := fun c => c.flat.toValue) here []
          fun _ _ => List.not_mem_nil
        rw [List.nil_append] at hwritten
        rw [childValues_eq, NestedResource.flatKinds_eq, List.map_map]
        exact (congrArg childrenOfKinds hwritten).trans (childrenOfKinds_objectsOfKinds hread)
      have hordered : ElementMap.Ordered (NestedResource.flatKinds kinds) := by
        rw [NestedResource.flatKinds_eq]
        exact ElementMap.ordered_mapValues (KindMap.ordered_flat here) NestedResource.flat
      have hsame : ofChildren model (NestedResource.flatKinds kinds) =
          .node model (NestedResource.flatKinds kinds) :=
        congrArg (Resource.node model) (ElementMap.insertAll_self hordered)
      rw [NestedResource.flat, toValue, ofValue_valueOfParts model hchildren, hsame]

end Resource
end MixedDomain
