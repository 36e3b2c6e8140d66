import Mathlib.Data.List.Basic
import Mathlib.Data.List.Induction
import MixedDomain.Proofs.Entries.History
import MixedDomain.Proofs.KeyedLists

/-!
# Entries in ascending order

## Order

Insertion by name keeps the names in ascending order, in which no name occurs twice.
Entries in ascending order are determined by what is found under each name.

## Sorting

Sorting finds the same things under the same names when the names are distinct.
-/

namespace MixedDomain
namespace Entries

variable {item other : Type} {key name : String} {x : item}
variable {entries pairs first : List (String × item)}

theorem mem_keys_insertSorted :
    name ∈ keys (insertSorted key x entries) ↔ name = key ∨ name ∈ keys entries := by
  induction entries with
  | nil =>
      simp [insertSorted, keys]
  | cons entry rest ih =>
      simp only [insertSorted]
      split
      · simp [keys]
      · split
        · rename_i heq
          simp [keys, heq]
        · simp only [keys, List.map_cons, List.mem_cons] at ih ⊢
          rw [ih]
          exact or_left_comm

theorem sorted_append_singleton (pairs : List (String × item)) (pair : String × item) :
    sorted (pairs ++ [pair]) = insertSorted pair.1 pair.2 (sorted pairs) := by
  rw [sorted, List.foldl_append]
  rfl

theorem get?_eq_lookup (key : String) (entries : List (String × item)) :
    get? key entries = entries.lookup key := by
  induction entries with
  | nil => rfl
  | cons entry rest ih =>
      rcases entry with ⟨k, y⟩
      by_cases hk : k = key
      · simp [get?, hk]
      · have hbeq : (key == k) = false := beq_eq_false_iff_ne.mpr (Ne.symm hk)
        simp [get?, List.lookup_cons, hk, hbeq, ih]

theorem get?_of_mem (h : Distinct entries) (hmem : (key, x) ∈ entries) :
    get? key entries = some x := by
  induction entries with
  | nil => cases hmem
  | cons entry rest ih =>
      rcases List.nodup_cons.mp h with ⟨hfirst, hrest⟩
      rcases List.mem_cons.mp hmem with rfl | hold
      · simp [get?]
      · have hne : entry.1 ≠ key := by
          intro heq
          exact hfirst (heq ▸ List.mem_map_of_mem hold)
        rw [get?, if_neg hne, ih hrest hold]

theorem get?_append (key : String) (first second : List (String × item)) :
    get? key (first ++ second) = (get? key first).or (get? key second) := by
  induction first with
  | nil => simp [get?]
  | cons entry rest ih =>
      by_cases hkey : entry.1 = key
      · simp [get?, hkey]
      · simp [get?, hkey, ih]

theorem get?_append_of_not_mem (h : key ∉ keys first) (second : List (String × item)) :
    get? key (first ++ second) = get? key second := by
  rw [get?_append, (get?_eq_none_iff key first).mpr h, Option.none_or]

theorem erase_append (h : key ∉ keys first) (second : List (String × item)) :
    erase key (first ++ second) = first ++ erase key second := by
  induction first with
  | nil =>
      rfl
  | cons entry rest ih =>
      rcases entry with ⟨k, x⟩
      rw [keys, List.map_cons, List.mem_cons, not_or] at h
      rw [List.cons_append, erase, if_neg (Ne.symm h.1), ih h.2, List.cons_append]

theorem insert_append (h : key ∉ keys first) (x : item) (second : List (String × item)) :
    insert key x (first ++ second) = first ++ insert key x second := by
  induction first with
  | nil =>
      rfl
  | cons entry rest ih =>
      rcases entry with ⟨k, y⟩
      rw [keys, List.map_cons, List.mem_cons, not_or] at h
      rw [List.cons_append, insert, if_neg (Ne.symm h.1), ih h.2, List.cons_append]

/-!
# Order
-/

def Ascending (entries : List (String × item)) : Prop :=
  (keys entries).Pairwise fun first second => first < second

theorem ascending_nil : Ascending ([] : List (String × item)) :=
  List.Pairwise.nil

theorem Ascending.distinct (h : Ascending entries) : Distinct entries := by
  refine List.Pairwise.imp ?_ h
  rintro first _ hlt rfl
  exact String.lt_irrefl first hlt

theorem ascending_insertSorted (h : Ascending entries) (key : String) (x : item) :
    Ascending (insertSorted key x entries) := by
  induction entries with
  | nil => exact List.pairwise_singleton _ key
  | cons entry rest ih =>
      rcases entry with ⟨k, y⟩
      rcases List.pairwise_cons.mp h with ⟨hfirst, hrest⟩
      simp only [insertSorted]
      split
      case isTrue hlt =>
          refine List.pairwise_cons.mpr ⟨?_, h⟩
          intro name hname
          rcases List.mem_cons.mp hname with rfl | hmem
          · exact hlt
          · exact String.lt_trans hlt (hfirst name hmem)
      case isFalse hnot =>
          split
          case isTrue heq =>
              subst heq
              exact h
          case isFalse hne =>
              have hlt : k < key :=
                Classical.byContradiction fun hge => hne (String.le_antisymm hge hnot)
              refine List.pairwise_cons.mpr ⟨?_, ih hrest⟩
              intro name hname
              rcases mem_keys_insertSorted.mp hname with rfl | hmem
              · exact hlt
              · exact hfirst name hmem

theorem mem_of_mem_erase {entry : String × item} (h : entry ∈ erase key entries) :
    entry ∈ entries := by
  induction entries with
  | nil => cases h
  | cons first rest ih =>
      simp only [erase] at h
      split at h
      · exact List.mem_cons_of_mem _ h
      · rcases List.mem_cons.mp h with rfl | hrest
        · exact List.mem_cons_self
        · exact List.mem_cons_of_mem _ (ih hrest)

theorem insertSorted_ne_nil (key : String) (x : item) (entries : List (String × item)) :
    insertSorted key x entries ≠ [] := by
  cases entries with
  | nil => exact List.cons_ne_nil _ _
  | cons entry rest =>
      simp only [insertSorted]
      split
      · exact List.cons_ne_nil _ _
      · split <;> exact List.cons_ne_nil _ _

theorem ascending_erase (h : Ascending entries) (key : String) : Ascending (erase key entries) := by
  rw [Ascending, keys_erase]
  exact List.Pairwise.sublist List.erase_sublist h

theorem ascending_modify (h : Ascending entries) (key : String) (f : item -> item) :
    Ascending (modify key f entries) := by
  rw [Ascending, keys_modify]
  exact h

theorem ascending_sorted (pairs : List (String × item)) : Ascending (sorted pairs) := by
  induction pairs using List.reverseRecOn with
  | nil => exact ascending_nil
  | append_singleton pairs pair ih =>
      rw [sorted_append_singleton]
      exact ascending_insertSorted ih pair.1 pair.2

theorem get?_sorted (h : Distinct pairs) (key : String) :
    get? key (sorted pairs) = get? key pairs := by
  induction pairs using List.reverseRecOn with
  | nil => rfl
  | append_singleton pairs pair ih =>
      have hsplit : (keys pairs ++ [pair.1]).Nodup := by
        simpa [Distinct, keys] using h
      rcases List.nodup_append.mp hsplit with ⟨hpairs, _, hdisjoint⟩
      rw [sorted_append_singleton, get?_insertSorted, ih hpairs, get?_append]
      by_cases hkey : pair.1 = key
      · subst hkey
        have hnone : get? pair.1 pairs = none := by
          rw [get?_eq_none_iff]
          exact fun hmem => hdisjoint _ hmem _ (List.mem_singleton_self _) rfl
        simp [hnone, get?]
      · simp [get?, hkey]

/-- Entries in ascending order are related one by one just if they are related under every name. -/
theorem forall₂_iff_rel_get? {r : item -> other -> Prop} {others : List (String × other)}
    (h : Ascending entries) (hothers : Ascending others) :
    List.Forall₂ (List.PairRel r) entries others ↔
      forall key, Option.Rel r (get? key entries) (get? key others) := by
  simp only [get?_eq_lookup]
  exact List.forall₂_iff_rel_lookup (fun _ _ => String.lt_asymm) h hothers

theorem eq_iff_of_ascending {others : List (String × item)} (h : Ascending entries)
    (hothers : Ascending others) :
    entries = others ↔ forall key, get? key entries = get? key others := by
  rw [← List.forall₂_pairRel_eq_iff, forall₂_iff_rel_get? h hothers]
  exact forall_congr' fun key => Option.rel_eq_iff

end Entries
end MixedDomain
