import Mathlib.Data.List.Basic
import Mathlib.Data.List.Forall2

/-!
# Lists with keys

## Things that may be missing

Two things that may be missing are related when both are missing, or both are there
and related.

## Lists in the order of their keys

Two lists of pairs in strict order of the keys are related pair by pair just if they
have related things under every key.
-/

namespace MixedDomain

theorem Option.rel_of_isSome_iff {first second : Type} {r : first -> second -> Prop}
    {x? : Option first} {y? : Option second} (hiff : x?.isSome ↔ y?.isSome)
    (h : forall x y, x? = some x -> y? = some y -> r x y) : Option.Rel r x? y? := by
  cases x? with
  | none =>
      cases y? with
      | none => exact .none
      | some y => exact absurd (hiff.mpr rfl) (by simp)
  | some x =>
      cases y? with
      | none => exact absurd (hiff.mp rfl) (by simp)
      | some y => exact .some (h x y rfl rfl)

theorem Option.rel_or {first second : Type} {r : first -> second -> Prop} {x x' : Option first}
    {y y' : Option second} (h : Option.Rel r x y) (h' : Option.Rel r x' y') :
    Option.Rel r (x.or x') (y.or y') := by
  cases h with
  | none => exact h'
  | some hxy => exact .some hxy

theorem Option.rel_bind {first second first' second' : Type} {r : first -> second -> Prop}
    {s : first' -> second' -> Prop} {x? : Option first} {y? : Option second}
    {f : first -> Option first'} {g : second -> Option second'} (h : Option.Rel r x? y?)
    (hfg : forall x y, r x y -> Option.Rel s (f x) (g y)) : Option.Rel s (x?.bind f) (y?.bind g) := by
  cases h with
  | none => exact .none
  | some hxy => exact hfg _ _ hxy

theorem Option.rel_map {first second first' second' : Type} {r : first -> second -> Prop}
    {s : first' -> second' -> Prop} {x? : Option first} {y? : Option second} {f : first -> first'}
    {g : second -> second'} (h : Option.Rel r x? y?) (hfg : forall x y, r x y -> s (f x) (g y)) :
    Option.Rel s (x?.map f) (y?.map g) := by
  cases h with
  | none => exact .none
  | some hxy => exact .some (hfg _ _ hxy)

theorem Option.rel_map_iff {first second first' second' : Type} {s : first' -> second' -> Prop}
    {x? : Option first} {y? : Option second} {f : first -> first'} {g : second -> second'} :
    Option.Rel s (x?.map f) (y?.map g) ↔ Option.Rel (fun x y => s (f x) (g y)) x? y? := by
  cases x? <;> cases y? <;> simp

theorem Option.isSome_iff_of_rel {first second : Type} {r : first -> second -> Prop}
    {x? : Option first} {y? : Option second} (h : Option.Rel r x? y?) : x?.isSome ↔ y?.isSome := by
  cases h <;> simp

theorem Option.rel_congr {first second : Type} {r s : first -> second -> Prop}
    {x? : Option first} {y? : Option second}
    (h : forall x y, x? = some x -> y? = some y -> (r x y ↔ s x y)) :
    Option.Rel r x? y? ↔ Option.Rel s x? y? := by
  cases x? <;> cases y? <;> simp_all

theorem Option.rel_eq_iff {item : Type} {x? y? : Option item} :
    Option.Rel (fun x y => x = y) x? y? ↔ x? = y? := by
  constructor
  · intro h
    cases h with
    | none => rfl
    | some hxy => rw [hxy]
  · rintro rfl
    cases x? with
    | none => exact .none
    | some x => exact .some rfl

def List.PairRel {key first second : Type} (r : first -> second -> Prop) (x : key × first)
    (y : key × second) : Prop :=
  x.1 = y.1 ∧ r x.2 y.2

theorem List.isSome_lookup_iff {key item : Type} [DecidableEq key] {k : key}
    {pairs : List (key × item)} : (pairs.lookup k).isSome ↔ k ∈ pairs.map Prod.fst := by
  simp [List.lookup_isSome_iff]

section

variable {key first second : Type} [DecidableEq key] {before : key -> key -> Prop}
  {r : first -> second -> Prop} {xs : List (key × first)} {ys : List (key × second)}

theorem List.rel_lookup_of_forall₂ (h : List.Forall₂ (List.PairRel r) xs ys) (k : key) :
    Option.Rel r (xs.lookup k) (ys.lookup k) := by
  induction h with
  | nil => exact .none
  | @cons x y xs ys hxy _ ih =>
      rcases x with ⟨d, x⟩
      rcases y with ⟨d', y⟩
      rcases hxy with ⟨rfl, hr⟩
      simp only [List.lookup_cons]
      split
      · exact .some hr
      · exact ih

theorem List.forall₂_of_rel_lookup (hbefore : forall k d, before k d -> ¬ before d k)
    (hxs : (xs.map Prod.fst).Pairwise before) (hys : (ys.map Prod.fst).Pairwise before)
    (h : forall k, Option.Rel r (xs.lookup k) (ys.lookup k)) :
    List.Forall₂ (List.PairRel r) xs ys := by
  have hsame : forall k, k ∈ xs.map Prod.fst ↔ k ∈ ys.map Prod.fst := by
    intro k
    rw [← List.isSome_lookup_iff, ← List.isSome_lookup_iff]
    exact Option.isSome_iff_of_rel (h k)
  induction xs generalizing ys with
  | nil =>
      cases ys with
      | nil => exact .nil
      | cons y ys => exact absurd ((hsame y.1).mpr List.mem_cons_self) (by simp)
  | cons x xs ih =>
      cases ys with
      | nil => exact absurd ((hsame x.1).mp List.mem_cons_self) (by simp)
      | cons y ys =>
          rcases x with ⟨d, x⟩
          rcases y with ⟨d', y⟩
          rcases List.pairwise_cons.mp hxs with ⟨hfirst, hrest⟩
          rcases List.pairwise_cons.mp hys with ⟨hfirst', hrest'⟩
          -- Of two different first keys, each would have to come before the other.
          have hd : d = d' := by
            refine Classical.byContradiction fun hne => ?_
            have hin : d ∈ ys.map Prod.fst := by
              have hmem := (hsame d).mp List.mem_cons_self
              simpa [hne] using hmem
            have hin' : d' ∈ xs.map Prod.fst := by
              have hmem := (hsame d').mpr List.mem_cons_self
              simpa [Ne.symm hne] using hmem
            exact hbefore d d' (hfirst d' hin') (hfirst' d hin)
          subst hd
          have hnot : d ∉ xs.map Prod.fst := fun hmem =>
            hbefore d d (hfirst d hmem) (hfirst d hmem)
          have hnot' : d ∉ ys.map Prod.fst := fun hmem =>
            hbefore d d (hfirst' d hmem) (hfirst' d hmem)
          refine .cons ⟨rfl, ?_⟩ (ih hrest hrest' ?_ ?_)
          · have hhere := h d
            simp only [List.lookup_cons, beq_self_eq_true] at hhere
            cases hhere
            assumption
          · intro k
            by_cases hk : k = d
            · subst hk
              rw [← List.isSome_lookup_iff, Bool.not_eq_true, Option.isSome_eq_false_iff,
                Option.isNone_iff_eq_none] at hnot hnot'
              rw [hnot, hnot']
              exact .none
            · have hbelow := h k
              have hbeq : (k == d) = false := beq_eq_false_iff_ne.mpr hk
              simpa only [List.lookup_cons, hbeq] using hbelow
          · intro k
            by_cases hk : k = d
            · subst hk
              exact iff_of_false hnot hnot'
            · have hmem := hsame k
              simpa [hk] using hmem

/-- Lists in strict order of the keys are related pair by pair just if they are related under every
key. -/
theorem List.forall₂_iff_rel_lookup (hbefore : forall k d, before k d -> ¬ before d k)
    (hxs : (xs.map Prod.fst).Pairwise before) (hys : (ys.map Prod.fst).Pairwise before) :
    List.Forall₂ (List.PairRel r) xs ys ↔
      forall k, Option.Rel r (xs.lookup k) (ys.lookup k) :=
  ⟨List.rel_lookup_of_forall₂, List.forall₂_of_rel_lookup hbefore hxs hys⟩

end

theorem List.forall₂_pairRel_eq_iff {key item : Type} {xs ys : List (key × item)} :
    List.Forall₂ (List.PairRel fun x y => x = y) xs ys ↔ xs = ys := by
  rw [← List.forall₂_eq_eq_eq]
  constructor
  · exact fun h => h.imp fun x y hxy => Prod.ext hxy.1 hxy.2
  · intro h
    refine h.imp ?_
    rintro x _ rfl
    exact ⟨rfl, rfl⟩

end MixedDomain
