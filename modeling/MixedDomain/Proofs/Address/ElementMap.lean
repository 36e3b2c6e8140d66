import MixedDomain.Address.ElementMap
import MixedDomain.Proofs.KeyedLists

/-!
# Maps from path elements

## The order of elements

Elements are ordered strictly: by key, and under one key by value.  Maps are kept
in that order, so that they hold at most one thing at an element.

## The view of each operation

What is found at an element after an insertion or an update, and which pairs are
there afterwards.  A map in order is determined by what is found in it.

## Many insertions

Inserting pairs one after the other keeps of several pairs at one element the
last one, and all of them if their elements are distinct.
-/

namespace MixedDomain
namespace PathElement

/-!
# The order of elements
-/

theorem compareText_eq_eq_iff (s t : String) : compareText s t = .eq ↔ s = t := by
  unfold compareText
  constructor
  · intro h
    split at h
    · cases h
    · split at h
      · assumption
      · cases h
  · intro h
    subst h
    simp

theorem compareText_eq_lt_iff (s t : String) : compareText s t = .lt ↔ s < t := by
  unfold compareText
  constructor
  · intro h
    split at h
    · assumption
    · split at h <;> cases h
  · intro h
    simp [h]

theorem compareText_eq_gt_iff (s t : String) : compareText s t = .gt ↔ t < s := by
  have hconnex : t < s ∨ t = s ∨ s < t := by
    by_cases hlt : t < s
    · exact Or.inl hlt
    · by_cases hgt : s < t
      · exact Or.inr (Or.inr hgt)
      · exact Or.inr (Or.inl (String.le_antisymm hgt hlt))
  unfold compareText
  rcases hconnex with hlt | heq | hgt
  · have hne : s ≠ t := fun h => String.lt_irrefl t (h ▸ hlt)
    simp [hlt, String.lt_asymm hlt, hne]
  · subst heq
    simp
  · simp [hgt, String.lt_asymm hgt]

theorem compare_eq_eq_iff (a b : PathElement) : a.compare b = .eq ↔ a = b := by
  cases a
  cases b
  simp [compare, Ordering.then_eq_eq, compareText_eq_eq_iff]

theorem compare_eq_lt_iff (a b : PathElement) :
    a.compare b = .lt ↔ a.key < b.key ∨ (a.key = b.key ∧ a.value < b.value) := by
  simp [compare, Ordering.then_eq_lt, compareText_eq_eq_iff, compareText_eq_lt_iff]

theorem compare_eq_gt_iff (a b : PathElement) : a.compare b = .gt ↔ b.compare a = .lt := by
  rw [compare_eq_lt_iff]
  simp only [compare, Ordering.then_eq_gt, compareText_eq_eq_iff, compareText_eq_gt_iff]
  rw [@eq_comm _ a.key]

theorem compare_lt_trans {a b c : PathElement} (hab : a.compare b = .lt)
    (hbc : b.compare c = .lt) : a.compare c = .lt := by
  rw [compare_eq_lt_iff] at *
  rcases hab with hab | ⟨hab, hab'⟩
  · rcases hbc with hbc | ⟨hbc, _⟩
    · exact Or.inl (String.lt_trans hab hbc)
    · exact Or.inl (hbc ▸ hab)
  · rcases hbc with hbc | ⟨hbc, hbc'⟩
    · exact Or.inl (hab ▸ hbc)
    · exact Or.inr ⟨hab.trans hbc, String.lt_trans hab' hbc'⟩

theorem ne_of_compare_lt {a b : PathElement} (h : a.compare b = .lt) : a ≠ b := by
  intro heq
  rw [(compare_eq_eq_iff a b).mpr heq] at h
  cases h

theorem ne_of_compare_gt {a b : PathElement} (h : a.compare b = .gt) : b ≠ a :=
  ne_of_compare_lt ((compare_eq_gt_iff a b).mp h)

end PathElement

namespace ElementMap

variable {item : Type} {map : List (PathElement × item)} {e d : PathElement} {x y : item}

/-!
# The view of each operation
-/

@[simp] theorem get?_insert_self (e : PathElement) (x : item) (map : List (PathElement × item)) :
    get? e (insert e x map) = some x := by
  induction map with
  | nil =>
      simp [insert, get?]
  | cons pair rest ih =>
      rcases pair with ⟨d, y⟩
      cases h : e.compare d with
      | lt => simp [insert, h, get?]
      | eq => simp [insert, h, get?]
      | gt =>
          have hne : d ≠ e := PathElement.ne_of_compare_gt h
          simp [insert, h, get?, hne, ih]

theorem get?_insert_of_ne (h : d ≠ e) (x : item) (map : List (PathElement × item)) :
    get? d (insert e x map) = get? d map := by
  induction map with
  | nil =>
      simp [insert, get?, Ne.symm h]
  | cons pair rest ih =>
      rcases pair with ⟨k, y⟩
      cases hcompare : e.compare k with
      | lt => simp [insert, hcompare, get?, Ne.symm h]
      | eq =>
          have hk : e = k := (PathElement.compare_eq_eq_iff e k).mp hcompare
          subst hk
          simp [insert, hcompare, get?, Ne.symm h]
      | gt => simp [insert, hcompare, get?, ih]

theorem mem_insert {pair : PathElement × item} (h : pair ∈ insert e x map) :
    pair = (e, x) ∨ pair ∈ map := by
  induction map with
  | nil =>
      exact Or.inl (List.mem_singleton.mp h)
  | cons first rest ih =>
      rcases first with ⟨d, y⟩
      simp only [insert] at h
      split at h
      · exact List.mem_cons.mp h
      · rcases List.mem_cons.mp h with heq | hrest
        · exact Or.inl heq
        · exact Or.inr (List.mem_cons_of_mem _ hrest)
      · rcases List.mem_cons.mp h with heq | hrest
        · exact Or.inr (by simp [heq])
        · rcases ih hrest with heq | hmem
          · exact Or.inl heq
          · exact Or.inr (List.mem_cons_of_mem _ hmem)

theorem mem_of_get? (h : get? e map = some x) : (e, x) ∈ map := by
  induction map with
  | nil =>
      cases h
  | cons first rest ih =>
      rcases first with ⟨d, y⟩
      simp only [get?] at h
      split at h
      · rename_i hd
        cases h
        simp [hd]
      · exact List.mem_cons_of_mem _ (ih h)

theorem get?_update_self (h : (get? e map).isSome) (x : item) :
    get? e (update e x map) = some x := by
  induction map with
  | nil =>
      cases h
  | cons first rest ih =>
      rcases first with ⟨d, y⟩
      by_cases hd : d = e
      · simp [update, get?, hd]
      · simp only [get?, hd, if_false] at h
        simp [update, get?, hd, ih h]

theorem update_update (e : PathElement) (x y : item) (map : List (PathElement × item)) :
    update e y (update e x map) = update e y map := by
  induction map with
  | nil =>
      rfl
  | cons first rest ih =>
      rcases first with ⟨d, z⟩
      by_cases hd : d = e
      · simp [update, hd]
      · simp [update, hd, ih]

theorem update_eq_self (h : get? e map = some x) : update e x map = map := by
  induction map with
  | nil =>
      rfl
  | cons first rest ih =>
      rcases first with ⟨d, y⟩
      by_cases hd : d = e
      · simp only [get?, hd, if_true, Option.some.injEq] at h
        simp [update, hd, h]
      · simp only [get?, hd, if_false] at h
        simp [update, hd, ih h]

theorem update_insert_self (e : PathElement) (x y : item) (map : List (PathElement × item)) :
    update e y (insert e x map) = insert e y map := by
  induction map with
  | nil =>
      simp [insert, update]
  | cons first rest ih =>
      rcases first with ⟨d, z⟩
      cases h : e.compare d with
      | lt => simp [insert, h, update]
      | eq => simp [insert, h, update]
      | gt =>
          have hne : d ≠ e := PathElement.ne_of_compare_gt h
          simp [insert, h, update, hne, ih]

/-!
# Maps in order
-/

/-- The elements are in strict order, so that no two are the same. -/
def Ordered (map : List (PathElement × item)) : Prop :=
  map.Pairwise fun pair other => pair.1.compare other.1 = .lt

theorem ordered_nil : Ordered ([] : List (PathElement × item)) :=
  List.Pairwise.nil

theorem ordered_insert (h : Ordered map) (e : PathElement) (x : item) :
    Ordered (insert e x map) := by
  induction map with
  | nil =>
      simp [insert, Ordered]
  | cons first rest ih =>
      rcases first with ⟨d, y⟩
      have hrest : Ordered rest := (List.pairwise_cons.mp h).2
      have habove : ∀ other ∈ rest, d.compare other.1 = .lt := (List.pairwise_cons.mp h).1
      cases hcompare : e.compare d with
      | lt =>
          simp only [insert, hcompare]
          refine List.pairwise_cons.mpr ⟨?_, h⟩
          intro other hother
          rcases List.mem_cons.mp hother with rfl | hmem
          · exact hcompare
          · exact PathElement.compare_lt_trans hcompare (habove other hmem)
      | eq =>
          have he : e = d := (PathElement.compare_eq_eq_iff e d).mp hcompare
          subst he
          simp only [insert, hcompare]
          exact List.pairwise_cons.mpr ⟨habove, hrest⟩
      | gt =>
          simp only [insert, hcompare]
          refine List.pairwise_cons.mpr ⟨?_, ih hrest⟩
          intro other hother
          rcases mem_insert hother with rfl | hmem
          · exact (PathElement.compare_eq_gt_iff e d).mp hcompare
          · exact habove other hmem

theorem Ordered.nodup (h : Ordered map) : (elements map).Nodup := by
  rw [elements, List.nodup_iff_pairwise_ne, List.pairwise_map]
  exact h.imp fun hlt => PathElement.ne_of_compare_lt hlt

theorem get?_of_mem (h : Ordered map) (hmem : (e, x) ∈ map) : get? e map = some x := by
  induction map with
  | nil =>
      cases hmem
  | cons first rest ih =>
      rcases first with ⟨d, y⟩
      have habove : ∀ other ∈ rest, d.compare other.1 = .lt := (List.pairwise_cons.mp h).1
      rcases List.mem_cons.mp hmem with heq | hrest
      · cases heq
        simp [get?]
      · have hne : d ≠ e := PathElement.ne_of_compare_lt (habove (e, x) hrest)
        simp [get?, hne, ih (List.pairwise_cons.mp h).2 hrest]

theorem insert_perm (h : Ordered map) (e : PathElement) (x : item) :
    (insert e x map).Perm ((e, x) :: map.filter fun pair => pair.1 != e) := by
  induction map with
  | nil =>
      simp [insert]
  | cons first rest ih =>
      rcases first with ⟨d, y⟩
      have hrest : Ordered rest := (List.pairwise_cons.mp h).2
      have habove : ∀ other ∈ rest, d.compare other.1 = .lt := (List.pairwise_cons.mp h).1
      cases hcompare : e.compare d with
      | lt =>
          have hkept : ((d, y) :: rest).filter (fun pair => pair.1 != e) = (d, y) :: rest := by
            rw [List.filter_eq_self]
            intro other hother
            have hlt : e.compare other.1 = .lt := by
              rcases List.mem_cons.mp hother with rfl | hmem
              · exact hcompare
              · exact PathElement.compare_lt_trans hcompare (habove other hmem)
            simpa using (PathElement.ne_of_compare_lt hlt).symm
          simp only [insert, hcompare, hkept]
          exact List.Perm.refl _
      | eq =>
          have he : e = d := (PathElement.compare_eq_eq_iff e d).mp hcompare
          subst he
          have hkept : rest.filter (fun pair => pair.1 != e) = rest := by
            rw [List.filter_eq_self]
            intro other hother
            simpa using (PathElement.ne_of_compare_lt (habove other hother)).symm
          simp only [insert, hcompare, List.filter_cons, bne_self_eq_false, hkept]
          exact List.Perm.refl _
      | gt =>
          have hne : d ≠ e := PathElement.ne_of_compare_gt hcompare
          have hfilter : ((d, y) :: rest).filter (fun pair => pair.1 != e) =
              (d, y) :: rest.filter fun pair => pair.1 != e := by
            simp [hne]
          simp only [insert, hcompare]
          rw [hfilter]
          exact ((ih hrest).cons (d, y)).trans (List.Perm.swap _ _ _)

theorem erase_sublist (e : PathElement) (map : List (PathElement × item)) :
    (erase e map).Sublist map := by
  induction map with
  | nil =>
      exact List.Sublist.refl []
  | cons first rest ih =>
      rcases first with ⟨d, y⟩
      by_cases hd : d = e
      · simp [erase, hd]
      · simp [erase, hd, ih]

theorem ordered_erase (h : Ordered map) (e : PathElement) : Ordered (erase e map) :=
  h.sublist (erase_sublist e map)

theorem elements_update (e : PathElement) (x : item) (map : List (PathElement × item)) :
    elements (update e x map) = elements map := by
  induction map with
  | nil =>
      rfl
  | cons first rest ih =>
      rcases first with ⟨d, y⟩
      by_cases hd : d = e
      · simp [update, elements, hd]
      · simpa [update, elements, hd] using ih

theorem ordered_iff_elements :
    Ordered map ↔ (elements map).Pairwise fun e d => e.compare d = .lt := by
  rw [elements, List.pairwise_map]
  rfl

theorem ordered_update (h : Ordered map) (e : PathElement) (x : item) :
    Ordered (update e x map) := by
  rw [ordered_iff_elements, elements_update, ← ordered_iff_elements]
  exact h

theorem get?_update_of_ne (h : d ≠ e) (x : item) (map : List (PathElement × item)) :
    get? d (update e x map) = get? d map := by
  induction map with
  | nil =>
      rfl
  | cons first rest ih =>
      rcases first with ⟨k, y⟩
      by_cases hk : k = e
      · simp [update, get?, hk, Ne.symm h]
      · simp [update, get?, hk, ih]

theorem get?_erase_of_ne (h : d ≠ e) (map : List (PathElement × item)) :
    get? d (erase e map) = get? d map := by
  induction map with
  | nil =>
      rfl
  | cons first rest ih =>
      rcases first with ⟨k, y⟩
      by_cases hk : k = e
      · simp [erase, get?, hk, Ne.symm h]
      · simp [erase, get?, hk, ih]

theorem get?_erase_self (h : Ordered map) (e : PathElement) : get? e (erase e map) = none := by
  induction map with
  | nil =>
      rfl
  | cons first rest ih =>
      rcases first with ⟨d, y⟩
      rcases List.pairwise_cons.mp h with ⟨habove, hrest⟩
      by_cases hd : d = e
      · subst hd
        simp only [erase, if_true]
        refine Option.eq_none_iff_forall_ne_some.mpr fun x hx => ?_
        exact PathElement.ne_of_compare_lt (habove (d, x) (mem_of_get? hx)) rfl
      · simp [erase, get?, hd, ih hrest]

/-!
# Maps by what is found in them
-/

theorem get?_eq_lookup (e : PathElement) (map : List (PathElement × item)) :
    get? e map = map.lookup e := by
  induction map with
  | nil =>
      rfl
  | cons first rest ih =>
      rcases first with ⟨d, y⟩
      by_cases hd : d = e
      · simp [get?, hd]
      · have hbeq : (e == d) = false := beq_eq_false_iff_ne.mpr (Ne.symm hd)
        simp [get?, List.lookup_cons, hd, hbeq, ih]

theorem isSome_get?_iff : (get? e map).isSome ↔ e ∈ elements map := by
  rw [get?_eq_lookup, List.isSome_lookup_iff, elements]

theorem get?_append (e : PathElement) (first second : List (PathElement × item)) :
    get? e (first ++ second) = (get? e first).or (get? e second) := by
  rw [get?_eq_lookup, get?_eq_lookup, get?_eq_lookup, List.lookup_append]

theorem get?_mapValues {other : Type} (f : item -> other) (e : PathElement)
    (map : List (PathElement × item)) :
    get? e (map.map fun pair => (pair.1, f pair.2)) = (get? e map).map f := by
  induction map with
  | nil =>
      rfl
  | cons first rest ih =>
      rw [List.map_cons, get?, get?, ih]
      split <;> rfl

theorem ordered_mapValues {other : Type} (h : Ordered map) (f : item -> other) :
    Ordered (map.map fun pair => (pair.1, f pair.2)) := by
  rw [Ordered, List.pairwise_map]
  exact h

/-- Maps in order are related pair by pair just if they are related at every element. -/
theorem forall₂_iff_rel_get? {other : Type} {r : item -> other -> Prop}
    {map' : List (PathElement × other)} (h : Ordered map) (h' : Ordered map') :
    List.Forall₂ (List.PairRel r) map map' ↔ forall e, Option.Rel r (get? e map) (get? e map') := by
  have hbefore : forall e d : PathElement, e.compare d = .lt -> ¬ d.compare e = .lt :=
    fun _ _ hlt hgt => PathElement.ne_of_compare_lt (PathElement.compare_lt_trans hlt hgt) rfl
  simp only [get?_eq_lookup]
  exact List.forall₂_iff_rel_lookup hbefore (ordered_iff_elements.mp h) (ordered_iff_elements.mp h')

theorem eq_iff_of_ordered {map' : List (PathElement × item)} (h : Ordered map)
    (h' : Ordered map') : map = map' ↔ forall e, get? e map = get? e map' := by
  rw [← List.forall₂_pairRel_eq_iff, forall₂_iff_rel_get? h h']
  exact forall_congr' fun e => Option.rel_eq_iff

/-!
# Many insertions
-/

def insertAll (pairs map : List (PathElement × item)) : List (PathElement × item) :=
  pairs.foldl (fun map pair => insert pair.1 pair.2 map) map

/-- The pairs without those that are followed by another one at the same element. -/
def lastAtEach : List (PathElement × item) -> List (PathElement × item)
  | [] => []
  | (e, x) :: rest =>
      if rest.any fun pair => pair.1 == e then lastAtEach rest else (e, x) :: lastAtEach rest

theorem ordered_insertAll (h : Ordered map) (pairs : List (PathElement × item)) :
    Ordered (insertAll pairs map) := by
  induction pairs generalizing map with
  | nil =>
      exact h
  | cons pair rest ih =>
      exact ih (ordered_insert h pair.1 pair.2)

theorem mem_insertAll {pair : PathElement × item} {pairs : List (PathElement × item)}
    (h : pair ∈ insertAll pairs map) : pair ∈ pairs ∨ pair ∈ map := by
  induction pairs generalizing map with
  | nil =>
      exact Or.inr h
  | cons first rest ih =>
      rcases ih h with hrest | hinsert
      · exact Or.inl (List.mem_cons_of_mem _ hrest)
      · rcases mem_insert hinsert with rfl | hmap
        · exact Or.inl List.mem_cons_self
        · exact Or.inr hmap

theorem lastAtEach_cons_of_mem {rest : List (PathElement × item)} (h : e ∈ elements rest) :
    lastAtEach ((e, x) :: rest) = lastAtEach rest := by
  rcases List.mem_map.mp h with ⟨pair, hpair, rfl⟩
  have hany : (rest.any fun other => other.1 == pair.1) = true :=
    List.any_eq_true.mpr ⟨pair, hpair, beq_self_eq_true pair.1⟩
  simp [lastAtEach, hany]

theorem lastAtEach_cons_of_not_mem {rest : List (PathElement × item)} (h : e ∉ elements rest) :
    lastAtEach ((e, x) :: rest) = (e, x) :: lastAtEach rest := by
  have hany : (rest.any fun other => other.1 == e) = false := by
    rw [List.any_eq_false]
    intro pair hpair heq
    exact h (beq_iff_eq.mp heq ▸ List.mem_map_of_mem hpair)
  simp [lastAtEach, hany]

theorem insertAll_perm_append (h : Ordered map) (pairs : List (PathElement × item)) :
    (insertAll pairs map).Perm
      (map.filter (fun pair => !pairs.any fun other => other.1 == pair.1) ++ lastAtEach pairs) := by
  induction pairs generalizing map with
  | nil =>
      have hall : map.filter (fun pair => !([] : List (PathElement × item)).any
          fun other => other.1 == pair.1) = map :=
        List.filter_eq_self.mpr fun pair _ => rfl
      rw [hall, lastAtEach, List.append_nil]
      exact List.Perm.refl map
  | cons first rest ih =>
      rcases first with ⟨e, x⟩
      have hstep := ih (ordered_insert h e x)
      have hinsert := (insert_perm h e x).filter fun pair =>
        !rest.any fun other => other.1 == pair.1
      have hfilter : (map.filter fun pair => pair.1 != e).filter
            (fun pair => !rest.any fun other => other.1 == pair.1) =
          map.filter fun pair => !((e, x) :: rest).any fun other => other.1 == pair.1 := by
        rw [List.filter_filter]
        apply List.filter_congr
        intro pair _
        simp only [List.any_cons, Bool.not_or, bne, Bool.and_comm]
        rw [Bool.beq_comm]
      refine hstep.trans ?_
      by_cases hlater : (rest.any fun pair => pair.1 == e) = true
      · rw [List.filter_cons_of_neg (by simpa using hlater), hfilter] at hinsert
        simp only [lastAtEach, hlater, if_true]
        exact hinsert.append_right _
      · rw [Bool.not_eq_true] at hlater
        rw [List.filter_cons_of_pos (by simpa using hlater), hfilter] at hinsert
        simp only [lastAtEach, hlater, Bool.false_eq_true, if_false]
        exact (hinsert.append_right _).trans List.perm_middle.symm

/-- Of several pairs at one element the last one stays. -/
theorem insertAll_perm (pairs : List (PathElement × item)) :
    (insertAll pairs []).Perm (lastAtEach pairs) := by
  simpa using insertAll_perm_append ordered_nil pairs

theorem insert_of_last (h : ∀ pair ∈ map, pair.1.compare e = .lt) (x : item) :
    insert e x map = map ++ [(e, x)] := by
  induction map with
  | nil =>
      rfl
  | cons first rest ih =>
      rcases List.forall_mem_cons.mp h with ⟨hfirst, hrest⟩
      have hgt : e.compare first.1 = .gt := (PathElement.compare_eq_gt_iff e first.1).mpr hfirst
      simp [insert, hgt, ih hrest]

theorem insertAll_of_ordered {pairs : List (PathElement × item)} (h : Ordered (map ++ pairs)) :
    insertAll pairs map = map ++ pairs := by
  induction pairs generalizing map with
  | nil =>
      exact (List.append_nil map).symm
  | cons pair rest ih =>
      have hlast : ∀ other ∈ map, other.1.compare pair.1 = .lt := fun other hother =>
        (List.pairwise_append.mp h).2.2 other hother pair List.mem_cons_self
      have hrest : Ordered (map ++ [pair] ++ rest) := by
        simpa using h
      have hstep : insertAll (pair :: rest) map = insertAll rest (insert pair.1 pair.2 map) := rfl
      rw [hstep, insert_of_last hlast, ih hrest, List.append_assoc]
      rfl

theorem insertAll_self (h : Ordered map) : insertAll map [] = map :=
  insertAll_of_ordered h

end ElementMap
end MixedDomain
