import MixedDomain.Proofs.Resource.Tree
import MixedDomain.Proofs.Sequence
import MixedDomain.Resource.Encoding

/-!
# Resources that are read

## From the children to the resource

The children that a value names are read first and then put into the resource one by
one.  What holds of a resource whenever it holds of the children put into it
therefore holds of every resource that is read.

## Order

A value may name its children in any order and more than once, but every resource
that is read is in order.
-/

namespace MixedDomain
namespace Resource

def HoldsUpwards (p : Resource -> Prop) : Prop :=
  forall model pairs, (∀ pair ∈ pairs, p pair.2) -> p (ofChildren model pairs)

variable {p : Resource -> Prop}

mutual

theorem holds_ofValue (hp : HoldsUpwards p) : (v : Value) -> forall {r : Resource},
    ofValue v = .ok r -> p r
  | .object entries, r, h => by
      simp only [ofValue] at h
      rcases Except.bind_eq_ok h with ⟨children, hchildren, hend⟩
      cases hend
      exact hp _ children (holds_childrenOfEntries hp entries hchildren)
  | .property name value, r, h => by
      simp only [ofValue] at h
      by_cases hname : name = childrenKey
      · rw [if_pos hname] at h
        rcases Except.map_eq_ok h with ⟨children, hchildren, rfl⟩
        exact hp _ children (holds_childrenOfValue hp value hchildren)
      · rw [if_neg hname] at h
        cases h
        exact hp _ [] nofun
  | .undefined, r, h | .boolean _, r, h | .int _, r, h | .long _, r, h | .double _, r, h
  | .bigInteger _, r, h | .bigDecimal _, r, h | .string _, r, h | .bytes _, r, h | .list _, r, h
  | .expression _, r, h | .type _, r, h => by
      cases h
      exact hp _ [] nofun

theorem holds_childrenOfEntries (hp : HoldsUpwards p) : (entries : List (String × Value)) ->
    forall {children : List (PathElement × Resource)}, childrenOfEntries entries = .ok children ->
      ∀ pair ∈ children, p pair.2
  | [], _, h => by
      cases h
      exact fun _ hmem => nomatch hmem
  | (key, value) :: rest, _, h => by
      simp only [childrenOfEntries] at h
      by_cases hkey : key = childrenKey
      · rw [if_pos hkey] at h
        exact holds_childrenOfValue hp value h
      · rw [if_neg hkey] at h
        exact holds_childrenOfEntries hp rest h

theorem holds_childrenOfValue (hp : HoldsUpwards p) : (v : Value) ->
    forall {children : List (PathElement × Resource)}, childrenOfValue v = .ok children ->
      ∀ pair ∈ children, p pair.2
  | .undefined, _, h => by
      cases h
      exact fun _ hmem => nomatch hmem
  | .object kinds, _, h => holds_childrenOfKinds hp kinds h

theorem holds_childrenOfKinds (hp : HoldsUpwards p) : (kinds : List (String × Value)) ->
    forall {children : List (PathElement × Resource)}, childrenOfKinds kinds = .ok children ->
      ∀ pair ∈ children, p pair.2
  | [], _, h => by
      cases h
      exact fun _ hmem => nomatch hmem
  | (kind, value) :: rest, _, h => by
      simp only [childrenOfKinds] at h
      rcases Except.bind_eq_ok h with ⟨first, hfirst, hafter⟩
      rcases Except.bind_eq_ok hafter with ⟨others, hothers, hend⟩
      cases hend
      exact List.forall_mem_append.mpr
        ⟨holds_childrenOfNamed hp kind value hfirst, holds_childrenOfKinds hp rest hothers⟩

theorem holds_childrenOfNamed (hp : HoldsUpwards p) (kind : String) : (v : Value) ->
    forall {children : List (PathElement × Resource)}, childrenOfNamed kind v = .ok children ->
      ∀ pair ∈ children, p pair.2
  | .object named, _, h => holds_childrenOfNames hp kind named h

theorem holds_childrenOfNames (hp : HoldsUpwards p) (kind : String) :
    (named : List (String × Value)) -> forall {children : List (PathElement × Resource)},
      childrenOfNames kind named = .ok children -> ∀ pair ∈ children, p pair.2
  | [], _, h => by
      cases h
      exact fun _ hmem => nomatch hmem
  | (name, value) :: rest, _, h => by
      simp only [childrenOfNames] at h
      rcases Except.bind_eq_ok h with ⟨child, hchild, hafter⟩
      rcases Except.bind_eq_ok hafter with ⟨others, hothers, hend⟩
      cases hend
      exact List.forall_mem_cons.mpr
        ⟨holds_ofValue hp value hchild, holds_childrenOfNames hp kind rest hothers⟩

end

end Resource
end MixedDomain
