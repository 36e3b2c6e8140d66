import Mathlib.Data.List.Basic
import Mathlib.Data.List.Count
import Mathlib.Data.List.Forall2
import Mathlib.Data.List.Induction
import Mathlib.Data.List.Nodup

/-!
# Sequences that may fail

## Endings

A sequence has a result when its parts have, and what every step keeps holds at
the end.  The first of several results is found from the front, and a thing by its
key.

## Checking

Some sequences check a list of things.  When each step has a result just if the
things so far are allowed, the sequence has one just if all of them are.  Often they
are allowed when each is and their keys are different.
-/

namespace MixedDomain

theorem Except.bind_eq_ok {error first second : Type} {m : Except error first}
    {k : first -> Except error second} {y : second} (h : (m >>= k) = .ok y) :
    exists x, m = .ok x ∧ k x = .ok y := by
  cases m with
  | error e => cases h
  | ok x => exact ⟨x, rfl, h⟩

theorem Except.bind_of_eq_ok {error first second : Type} {m : Except error first}
    {k : first -> Except error second} {x : first} {y : second} (hm : m = .ok x)
    (hk : k x = .ok y) : (m >>= k) = .ok y := by
  rw [hm]
  exact hk

theorem Except.map_eq_ok {error first second : Type} {m : Except error first}
    {f : first -> second} {y : second} (h : m.map f = .ok y) : exists x, m = .ok x ∧ f x = y := by
  cases m with
  | error e => cases h
  | ok x =>
      cases h
      exact ⟨x, rfl, rfl⟩

theorem Except.map_of_eq_ok {error first second : Type} {m : Except error first}
    (f : first -> second) {x : first} (hm : m = .ok x) : m.map f = .ok (f x) := by
  rw [hm]
  rfl

theorem List.findSome?_cons_eq_or {item result : Type} (f : item -> Option result) (x : item)
    (items : List item) : (x :: items).findSome? f = (f x).or (items.findSome? f) := by
  rw [List.findSome?_cons]
  cases f x <;> rfl

/-- In an ordered list, the first result comes before all others. -/
theorem List.exists_first_of_findSome? {item result : Type} {f : item -> Option result}
    {before : item -> item -> Prop} {items : List item} (hordered : items.Pairwise before)
    {y : result} (h : items.findSome? f = some y) :
    exists x, x ∈ items ∧ f x = some y ∧ ∀ z ∈ items, z ≠ x -> (f z).isSome -> before x z := by
  rcases List.findSome?_eq_some_iff.mp h with ⟨earlier, x, later, rfl, hx, hnone⟩
  rcases List.pairwise_append.mp hordered with ⟨_, hlater, _⟩
  refine ⟨x, List.mem_append_right earlier List.mem_cons_self, hx, ?_⟩
  intro z hz hne hsome
  rcases List.mem_append.mp hz with hearlier | hhere
  · rw [hnone z hearlier] at hsome
    cases hsome
  · rcases List.mem_cons.mp hhere with heq | hmem
    · exact absurd heq hne
    · exact (List.pairwise_cons.mp hlater).1 z hmem

theorem List.find?_key_of_mem {item key : Type} [DecidableEq key] {f : item -> key}
    {items : List item} (hkeys : (items.map f).Nodup) {x : item} (hx : x ∈ items) :
    items.find? (fun y => f y == f x) = some x := by
  cases hfind : items.find? fun y => f y == f x with
  | none => exact absurd (List.find?_eq_none.mp hfind x hx) (by simp)
  | some found =>
      have heq : f found = f x := by
        simpa using List.find?_some hfind
      rw [List.inj_on_of_nodup_map hkeys (List.mem_of_find?_eq_some hfind) hx heq]

theorem List.eraseDups_append_singleton {item : Type} [DecidableEq item] (items : List item)
    (x : item) :
    (items ++ [x]).eraseDups =
      if x ∈ items then items.eraseDups else items.eraseDups ++ [x] := by
  rw [List.eraseDups_append]
  by_cases hx : x ∈ items <;> simp [List.removeAll, hx, List.eraseDups_cons]

theorem List.nodup_eraseDups {item : Type} [DecidableEq item] (items : List item) :
    items.eraseDups.Nodup := by
  induction items using List.reverseRecOn with
  | nil => exact List.nodup_nil
  | append_singleton items x ih =>
      rw [List.eraseDups_append_singleton]
      split
      · exact ih
      case isFalse hx =>
          rw [← List.concat_eq_append, List.nodup_concat, List.mem_eraseDups]
          exact ⟨hx, ih⟩

theorem List.countP_lt_countP_of_mem {item : Type} {items : List item} {strict weak : item -> Bool}
    {x : item} (hx : x ∈ items) (himp : forall y, strict y = true -> weak y = true)
    (hstrict : strict x = false) (hweak : weak x = true) :
    items.countP strict < items.countP weak := by
  have hsame : items.countP strict = (items.filter weak).countP strict := by
    rw [List.countP_filter]
    apply List.countP_congr
    intro y _
    rw [Bool.and_eq_true, and_iff_left_of_imp (himp y)]
  have hall : items.countP weak = (items.filter weak).length := List.countP_eq_length_filter
  rw [hsame, hall, List.countP_lt_length_iff]
  exact ⟨x, List.mem_filter.mpr ⟨hx, hweak⟩, hstrict⟩

theorem List.exists_of_mem_of_forall₂ {first second : Type} {r : first -> second -> Prop}
    {xs : List first} {ys : List second} (h : List.Forall₂ r xs ys) {x : first} (hx : x ∈ xs) :
    ∃ y ∈ ys, r x y := by
  induction h with
  | nil => cases hx
  | @cons first second firsts seconds hhere hrest ih =>
      rcases List.mem_cons.mp hx with rfl | hmem
      · exact ⟨second, List.mem_cons_self, hhere⟩
      · rcases ih hmem with ⟨y, hy, hr⟩
        exact ⟨y, List.mem_cons_of_mem second hy, hr⟩

theorem List.getLast?_of_suffix {item : Type} {items whole : List item} (h : items <:+ whole)
    (hne : items ≠ []) : items.getLast? = whole.getLast? := by
  rcases h with ⟨front, rfl⟩
  exact (List.getLast?_append_of_ne_nil front hne).symm

theorem List.exists_getLast?_of_forall₂ {first second : Type} {r : first -> second -> Prop}
    {xs : List first} {ys : List second} (h : List.Forall₂ r xs ys) {y : second}
    (hy : ys.getLast? = some y) : ∃ x, xs.getLast? = some x ∧ r x y := by
  induction h with
  | nil => cases hy
  | @cons first second firsts seconds hhere hrest ih =>
      cases hrest with
      | nil =>
          cases hy
          exact ⟨first, rfl, hhere⟩
      | cons hnext hothers => exact ih hy

/-- A sequence of calls has results when all calls have one, in the same order. -/
theorem Except.mapM_eq_ok_iff {error item result : Type} {f : item -> Except error result}
    {items : List item} {results : List result} :
    items.mapM f = .ok results ↔ List.Forall₂ (fun x y => f x = .ok y) items results := by
  induction items generalizing results with
  | nil =>
      rw [List.mapM_nil, List.forall₂_nil_left_iff]
      exact ⟨fun h => by cases h; rfl, fun h => by rw [h]; rfl⟩
  | cons x rest ih =>
      rw [List.mapM_cons, List.forall₂_cons_left_iff]
      constructor
      · intro h
        rcases Except.bind_eq_ok h with ⟨y, hy, hafter⟩
        rcases Except.bind_eq_ok hafter with ⟨others, hothers, hend⟩
        cases hend
        exact ⟨y, others, hy, ih.mp hothers, rfl⟩
      · rintro ⟨y, others, hy, hothers, rfl⟩
        rw [hy, ih.mpr hothers]
        rfl

theorem Except.exists_of_mapM_eq_error {error item result : Type} {f : item -> Except error result}
    {items : List item} {e : error} (h : items.mapM f = .error e) : ∃ x ∈ items, f x = .error e := by
  induction items with
  | nil => cases h
  | cons x rest ih =>
      rw [List.mapM_cons] at h
      cases hx : f x with
      | error e' =>
          rw [hx] at h
          cases h
          exact ⟨x, List.mem_cons_self, hx⟩
      | ok y =>
          rw [hx] at h
          cases hrest : rest.mapM f with
          | error e' =>
              rw [hrest] at h
              cases h
              rcases ih hrest with ⟨z, hz, he⟩
              exact ⟨z, List.mem_cons_of_mem x hz, he⟩
          | ok others =>
              rw [hrest] at h
              cases h

theorem Except.foldlM_keeps {error item state : Type} {f : state -> item -> Except error state}
    {p : state -> Prop} {items : List item}
    (hstep : ∀ x ∈ items, forall s s', p s -> f s x = .ok s' -> p s') {s s' : state}
    (hs : p s) (h : items.foldlM f s = .ok s') : p s' := by
  induction items generalizing s with
  | nil =>
      cases h
      exact hs
  | cons x rest ih =>
      rw [List.foldlM_cons] at h
      rcases Except.bind_eq_ok h with ⟨mid, hx, hrest⟩
      exact ih (fun y hy => hstep y (List.mem_cons_of_mem x hy))
        (hstep x List.mem_cons_self s mid hs hx) hrest

/-!
# Checking
-/

/-- Whether things have different keys, and a property each. -/
structure List.EachApart {item key : Type} (f : item -> key) (q : item -> Prop)
    (items : List item) : Prop where
  distinct : (items.map f).Nodup
  each : ∀ x ∈ items, q x

theorem List.EachApart.of_append {item key : Type} {f : item -> key} {q : item -> Prop}
    {items rest : List item} (h : EachApart f q (items ++ rest)) : EachApart f q items where
  distinct := by
    have hdistinct := h.distinct
    rw [List.map_append] at hdistinct
    exact hdistinct.of_append_left
  each x hx := h.each x (List.mem_append_left rest hx)

theorem List.eachApart_append_singleton {item key : Type} {f : item -> key} {q : item -> Prop}
    {items : List item} {x : item} :
    EachApart f q (items ++ [x]) ↔ EachApart f q items ∧ f x ∉ items.map f ∧ q x := by
  have hnodup : ((items ++ [x]).map f).Nodup ↔ f x ∉ items.map f ∧ (items.map f).Nodup := by
    rw [List.map_append, List.map_singleton, ← List.concat_eq_append, List.nodup_concat]
  constructor
  · intro h
    exact ⟨h.of_append, (hnodup.mp h.distinct).1, h.each x (by simp)⟩
  · rintro ⟨hitems, hnew, hx⟩
    exact ⟨hnodup.mpr ⟨hnew, hitems.distinct⟩,
      List.forall_mem_append.mpr ⟨hitems.each, List.forall_mem_singleton.mpr hx⟩⟩

/-- Steps that keep a relation of the things so far to the state, and that have a result when the
next thing is allowed after those before it. -/
structure Except.Checks {error item state : Type} (f : state -> item -> Except error state)
    (allowed : List item -> Prop) (r : List item -> state -> Prop) (items : List item) :
    Prop where
  of_append : forall before rest, allowed (before ++ rest) -> allowed before
  accepts : ∀ x ∈ items, forall before s, r before s -> allowed (before ++ [x]) ->
    ∃ s', f s x = .ok s'
  keeps : ∀ x ∈ items, forall before s s', r before s -> f s x = .ok s' -> r (before ++ [x]) s'

namespace Except.Checks

variable {error item state : Type} {f : state -> item -> Except error state}
  {allowed : List item -> Prop} {r : List item -> state -> Prop} {items before : List item}
  {s : state}

theorem of_cons {x : item} (h : Checks f allowed r (x :: items)) : Checks f allowed r items where
  of_append := h.of_append
  accepts y hy := h.accepts y (List.mem_cons_of_mem x hy)
  keeps y hy := h.keeps y (List.mem_cons_of_mem x hy)

theorem foldlM_keeps (h : Checks f allowed r items) (hs : r before s) {s' : state}
    (heq : items.foldlM f s = .ok s') : r (before ++ items) s' := by
  induction items generalizing before s with
  | nil =>
      cases heq
      rw [List.append_nil]
      exact hs
  | cons x rest ih =>
      rw [List.foldlM_cons] at heq
      rcases Except.bind_eq_ok heq with ⟨mid, hx, hrest⟩
      rw [List.append_cons]
      exact ih h.of_cons (h.keeps x List.mem_cons_self before s mid hs hx) hrest

theorem foldlM_accepts (h : Checks f allowed r items) (hs : r before s)
    (hallowed : allowed (before ++ items)) : ∃ s', items.foldlM f s = .ok s' := by
  induction items generalizing before s with
  | nil => exact ⟨s, rfl⟩
  | cons x rest ih =>
      rw [List.append_cons] at hallowed
      rcases h.accepts x List.mem_cons_self before s hs (h.of_append _ rest hallowed) with
        ⟨mid, hx⟩
      have hmid := h.keeps x List.mem_cons_self before s mid hs hx
      rcases ih h.of_cons hmid hallowed with ⟨s', hrest⟩
      exact ⟨s', Except.bind_of_eq_ok hx hrest⟩

end Except.Checks
end MixedDomain
