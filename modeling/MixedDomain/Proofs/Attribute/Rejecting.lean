import MixedDomain.Proofs.Entries.Sorted
import MixedDomain.Rule

/-!
# Rejected attributes

## Grouping

Rejections are grouped by messages.  Grouping loses no attribute and makes none up:
an attribute is in some group exactly when one of its own checks rejects its value.
-/

namespace MixedDomain

namespace Rejections

def Concerns (r : Rejections) (name : String) : Prop :=
  ∃ group ∈ r, name ∈ Entries.keys group.2

theorem concerns_add {r : Rejections} {check : RejectCheck} {name other : String} {v : Value} :
    (r.add check name v).Concerns other ↔ other = name ∨ r.Concerns other := by
  induction r with
  | nil =>
      simp [add, Concerns, Entries.keys]
  | cons group rest ih =>
      unfold Concerns at ih ⊢
      simp only [add]
      split
      · simp only [List.exists_mem_cons_iff, Entries.mem_keys_insertSorted, or_assoc]
      · simp only [List.exists_mem_cons_iff, ih]
        exact or_left_comm

theorem add_ne_nil (r : Rejections) (check : RejectCheck) (name : String) (v : Value) :
    r.add check name v ≠ [] := by
  cases r with
  | nil =>
      exact List.cons_ne_nil _ _
  | cons group rest =>
      simp only [add]
      split <;> exact List.cons_ne_nil _ _

theorem concerns_foldl_add {checks : List RejectCheck} {r : Rejections} {name other : String}
    {v : Value} : (checks.foldl (fun r check => r.add check name v) r).Concerns other ↔
      (checks ≠ [] ∧ other = name) ∨ r.Concerns other := by
  induction checks generalizing r with
  | nil =>
      simp
  | cons check rest ih =>
      rw [List.foldl_cons, ih, concerns_add]
      simp only [ne_eq, List.cons_ne_nil, not_false_eq_true, true_and]
      constructor
      · rintro (⟨_, hname⟩ | hadded)
        · exact Or.inl hname
        · exact hadded
      · exact Or.inr

theorem foldl_add_eq_nil_iff {checks : List RejectCheck} {r : Rejections} {name : String}
    {v : Value} : checks.foldl (fun r check => r.add check name v) r = [] ↔
      checks = [] ∧ r = [] := by
  induction checks generalizing r with
  | nil =>
      simp
  | cons check rest ih =>
      simp [ih, add_ne_nil]

end Rejections

namespace AttributeDescription

variable {ds : List AttributeDescription} {a : Address} {v : Value} {c : Context}

theorem concerns_rejections {name : String} : (rejections ds a v c).Concerns name ↔
    ∃ d ∈ ds, d.name = name ∧ d.rejecting a (v.getOrUndefined d.name) c ≠ [] := by
  have hfold : forall found : Rejections,
      (ds.foldl (fun found d => d.addRejections a (v.getOrUndefined d.name) c found)
        found).Concerns name ↔
        (∃ d ∈ ds, d.name = name ∧ d.rejecting a (v.getOrUndefined d.name) c ≠ []) ∨
          found.Concerns name := by
    induction ds with
    | nil =>
        simp
    | cons d rest ih =>
        intro found
        rw [List.foldl_cons, ih, addRejections, Rejections.concerns_foldl_add,
          List.exists_mem_cons_iff, and_comm, eq_comm, ← or_assoc]
        exact or_congr_left or_comm
  have hnone : ¬ Rejections.Concerns [] name := by
    simp [Rejections.Concerns]
  rw [rejections, hfold, or_iff_left hnone]

theorem rejections_eq_nil_iff : rejections ds a v c = [] ↔
    ∀ d ∈ ds, d.rejecting a (v.getOrUndefined d.name) c = [] := by
  have hfold : forall found : Rejections,
      ds.foldl (fun found d => d.addRejections a (v.getOrUndefined d.name) c found) found = [] ↔
        (∀ d ∈ ds, d.rejecting a (v.getOrUndefined d.name) c = []) ∧ found = [] := by
    induction ds with
    | nil =>
        simp
    | cons d rest ih =>
        intro found
        rw [List.foldl_cons, ih, addRejections, Rejections.foldl_add_eq_nil_iff,
          List.forall_mem_cons, ← and_assoc]
        exact and_congr_left' and_comm
  rw [rejections, hfold, and_iff_left rfl]

end AttributeDescription
end MixedDomain
