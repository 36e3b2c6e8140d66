import Mathlib.Data.List.Infix
import MixedDomain.Proofs.Address.Trie

/-!
# Looking patterns up

## What is stored

When configurations are stored in order, the last one at a pattern stays, and there
are nodes just for the beginnings of the patterns.

## The pattern that stands for an address

A look-up takes the own element of the address as long as some pattern begins so,
and a wildcard otherwise.  Hence it builds one pattern, and finds what was stored
last there.
-/

namespace MixedDomain

namespace Address

def begins (patterns : List Address) (front : Address) : Bool :=
  patterns.any fun pattern => front.isPrefixOf pattern

/-- The element that a pattern has in the place of an element of an address: this element itself if it
is no wildcard and some pattern begins so, else the wildcard of its key. -/
def taken (patterns : List Address) (front : Address) (e : PathElement) : PathElement :=
  if !e.isWildcard && begins patterns (front.child e) then e else PathElement.wildcard e.key

/-- The rest of a pattern with a given front for the rest of an address, if some pattern goes on like
this as far as the address goes. -/
def standingFrom? (patterns : List Address) : Address -> Address -> Option Address
  | _, [] => some []
  | front, e :: rest =>
      let next := taken patterns front e
      if begins patterns (front.child next) then
        (standingFrom? patterns (front.child next) rest).map fun p => next :: p
      else
        none

def standing? (patterns : List Address) (a : Address) : Option Address :=
  standingFrom? patterns root a

variable {patterns : List Address} {front : Address}

theorem begins_iff : begins patterns front ↔ ∃ pattern ∈ patterns, front <+: pattern := by
  simp [begins, List.isPrefixOf_iff_prefix]

end Address

theorem PathElement.eq_wildcard_of_isWildcard {e : PathElement} (h : e.isWildcard) :
    e = wildcard e.key := by
  rcases e with ⟨key, value⟩
  simp only [isWildcard, beq_iff_eq] at h
  rw [wildcard, h]

namespace Trie

variable {config : Type} {t : Trie config} {p q front : Address} {c : config} {e : PathElement}
  {entries : List (Address × config)}

def lastAt? (pattern : Address) (entries : List (Address × config)) : Option config :=
  (entries.reverse.find? fun entry => entry.1 == pattern).map Prod.snd

theorem lastAt?_append_singleton (entries : List (Address × config)) (q : Address) (c : config) :
    lastAt? p (entries ++ [(q, c)]) = if q = p then some c else lastAt? p entries := by
  by_cases h : q = p <;> simp [lastAt?, h]

theorem isSome_lastAt?_iff : (lastAt? p entries).isSome ↔ p ∈ entries.map Prod.fst := by
  rw [lastAt?, Option.isSome_map, List.find?_isSome, List.mem_map]
  simp only [List.mem_reverse, beq_iff_eq]

/-!
# What is stored
-/

theorem stored?_cons (e : PathElement) (rest : Address) (t : Trie config) :
    t.stored? (e :: rest) = (ElementMap.get? e t.children).bind (stored? rest) := by
  rfl

theorem storedAt?_cons (e : PathElement) (rest : Address) (t : Trie config) :
    t.storedAt? (e :: rest) = (ElementMap.get? e t.children).bind (storedAt? rest) := by
  rw [storedAt?, stored?_cons, Option.bind_assoc]
  rfl

theorem children_insert_cons (t : Trie config) (e : PathElement) (rest : Address) (c : config) :
    (t.insert (e :: rest) c).children =
      ElementMap.insert e (((ElementMap.get? e t.children).getD empty).insert rest c)
        t.children := by
  rfl

theorem storedAt?_empty (p : Address) : (empty : Trie config).storedAt? p = none := by
  cases p <;> rfl

theorem isSome_stored?_empty : ((empty : Trie config).stored? p).isSome ↔ p = [] := by
  cases p with
  | nil => simp [stored?]
  | cons e rest => simp [stored?, empty, ElementMap.get?]

theorem stored?_child {n : Trie config} (h : t.stored? front = some n) (e : PathElement) :
    t.stored? (front.child e) = ElementMap.get? e n.children := by
  induction front generalizing t with
  | nil =>
      cases h
      exact Option.bind_fun_some _
  | cons d rest ih =>
      rcases Option.bind_eq_some_iff.mp h with ⟨next, hnext, hrest⟩
      rw [Address.child, List.cons_append, stored?_cons, hnext]
      exact ih hrest

theorem storedAt?_insert (t : Trie config) (q : Address) (c : config) (p : Address) :
    (t.insert q c).storedAt? p = if q = p then some c else t.storedAt? p := by
  induction q generalizing t p with
  | nil =>
      cases p <;> rfl
  | cons e rest ih =>
      cases p with
      | nil => rfl
      | cons d others =>
          rw [storedAt?_cons, storedAt?_cons, children_insert_cons]
          by_cases hd : d = e
          · subst hd
            rw [ElementMap.get?_insert_self, Option.bind_some, ih]
            simp only [List.cons.injEq, true_and]
            cases ElementMap.get? d t.children with
            | none => simp [storedAt?_empty]
            | some next => rfl
          · rw [ElementMap.get?_insert_of_ne hd, if_neg fun h => hd (List.cons.inj h).1.symm]

theorem isSome_stored?_insert (t : Trie config) (q : Address) (c : config) (p : Address) :
    ((t.insert q c).stored? p).isSome ↔ p <+: q ∨ (t.stored? p).isSome := by
  induction q generalizing t p with
  | nil =>
      cases p with
      | nil => simp [stored?]
      | cons d others => simp [insert, modify, stored?]
  | cons e rest ih =>
      cases p with
      | nil => simp [stored?]
      | cons d others =>
          rw [stored?_cons, stored?_cons, children_insert_cons, List.cons_prefix_cons]
          by_cases hd : d = e
          · subst hd
            rw [ElementMap.get?_insert_self, Option.bind_some, ih]
            simp only [true_and]
            cases ElementMap.get? d t.children with
            | none =>
                rw [Option.getD_none, isSome_stored?_empty, or_iff_left_of_imp]
                · simp
                · rintro rfl
                  exact List.nil_prefix
            | some next => rfl
          · simp [ElementMap.get?_insert_of_ne hd, hd]

/-- Among the configurations that have been stored in order the last one at a pattern stays. -/
theorem storedAt?_insertNodes (entries : List (Address × config)) (p : Address) :
    (empty.insertNodes entries).storedAt? p = lastAt? p entries := by
  induction entries using List.reverseRecOn with
  | nil => exact storedAt?_empty p
  | append_singleton before entry ih =>
      rcases entry with ⟨q, c⟩
      rw [insertNodes_append, lastAt?_append_singleton, ← ih]
      exact storedAt?_insert _ q c p

theorem isSome_stored?_insertNodes_iff (entries : List (Address × config)) (p : Address) :
    ((empty.insertNodes entries).stored? p).isSome ↔
      p = [] ∨ Address.begins (entries.map Prod.fst) p := by
  rw [Address.begins_iff]
  induction entries using List.reverseRecOn with
  | nil => simpa [insertNodes] using isSome_stored?_empty
  | append_singleton before entry ih =>
      rcases entry with ⟨q, c⟩
      rw [insertNodes_append]
      refine (isSome_stored?_insert _ q c p).trans ?_
      rw [ih]
      simp only [List.map_append, List.map_cons, List.map_nil, List.mem_append, List.mem_singleton,
        or_and_right, exists_or, exists_eq_left]
      rw [or_comm, or_assoc]

/-!
# The pattern that stands for an address
-/

theorem child?_eq_stored? {patterns : List Address}
    (h : forall (q : Address) (e : PathElement),
      (t.stored? (q.child e)).isSome ↔ Address.begins patterns (q.child e))
    {n : Trie config} (hfront : t.stored? front = some n) (e : PathElement) :
    n.child? e = t.stored? (front.child (Address.taken patterns front e)) := by
  have hown := stored?_child hfront e
  rw [child?, ← hown, ← stored?_child hfront, Address.taken]
  cases hnext : t.stored? (front.child e) with
  | some next =>
      have hbegins : Address.begins patterns (front.child e) := (h front e).mp (by simp [hnext])
      cases he : e.isWildcard with
      | false => simp [hbegins, hnext]
      | true => simp [← PathElement.eq_wildcard_of_isWildcard he, hnext]
  | none =>
      have hbegins : ¬ Address.begins patterns (front.child e) := by
        rw [← h front e, hnext]
        simp
      simp [hbegins]

theorem node?_eq_standingFrom? {patterns : List Address}
    (h : forall (q : Address) (e : PathElement),
      (t.stored? (q.child e)).isSome ↔ Address.begins patterns (q.child e))
    {n : Trie config} (hfront : t.stored? front = some n) (a : Address) :
    n.node? a =
      (Address.standingFrom? patterns front a).bind fun p => t.stored? (front ++ p) := by
  induction a generalizing front n with
  | nil =>
      rw [Address.standingFrom?, Option.bind_some, List.append_nil]
      exact hfront.symm
  | cons e rest ih =>
      rw [node?_cons, child?_eq_stored? h hfront, Address.standingFrom?]
      generalize Address.taken patterns front e = next
      cases hnext : t.stored? (front.child next) with
      | some child =>
          rw [if_pos ((h front next).mp (by simp [hnext])), Option.bind_some, ih hnext,
            Option.bind_map]
          simp only [Function.comp_def, Address.append_cons_eq_child]
      | none =>
          have hnone : ¬ Address.begins patterns (front.child next) := by
            rw [← h front next, hnext]
            simp
          rw [if_neg hnone]
          rfl

theorem get?_insertNodes (entries : List (Address × config)) (a : Address) :
    (empty.insertNodes entries).get? a =
      (Address.standing? (entries.map Prod.fst) a).bind fun p => lastAt? p entries := by
  have hnodes : forall q e, ((empty.insertNodes entries).stored? (Address.child q e)).isSome ↔
      Address.begins (entries.map Prod.fst) (q.child e) := by
    intro q e
    rw [isSome_stored?_insertNodes_iff, or_iff_right]
    simp [Address.child]
  have hroot : (empty.insertNodes entries).stored? Address.root =
      some (empty.insertNodes entries) := by
    rfl
  rw [get?, node?_eq_standingFrom? hnodes hroot, Option.bind_assoc]
  simp only [← storedAt?_insertNodes]
  rfl

/-!
# Tries in which nothing is stored
-/

theorem allEmpty_eq_all (children : List (PathElement × Trie config)) :
    allEmpty children = children.all fun pair => pair.2.isEmpty := by
  induction children with
  | nil => simp [allEmpty]
  | cons pair rest ih => simp [allEmpty, ih]

theorem isEmpty_insert (t : Trie config) (p : Address) (c : config) :
    (t.insert p c).isEmpty = false := by
  induction p generalizing t with
  | nil => simp [insert, modify, isEmpty]
  | cons e rest ih =>
      have hchild := ElementMap.mem_of_get? (ElementMap.get?_insert_self e
        (insert rest c ((ElementMap.get? e t.children).getD empty)) t.children)
      have hall : allEmpty (ElementMap.insert e
          (insert rest c ((ElementMap.get? e t.children).getD empty)) t.children) = false := by
        rw [allEmpty_eq_all, List.all_eq_false]
        exact ⟨_, hchild, by simp [ih]⟩
      show (t.here?.isNone && allEmpty (ElementMap.insert e _ t.children)) = false
      rw [Bool.and_eq_false_iff]
      exact Or.inr hall

theorem isEmpty_insertNodes_iff (entries : List (Address × config)) :
    (empty.insertNodes entries).isEmpty ↔ entries = [] := by
  rcases List.eq_nil_or_concat entries with rfl | ⟨before, ⟨p, c⟩, rfl⟩
  · simp [insertNodes, empty, isEmpty, allEmpty]
  · rw [List.concat_eq_append, insertNodes_append]
    have hfull : (insertNodes [(p, c)] (insertNodes before empty)).isEmpty = false :=
      isEmpty_insert _ p c
    simp [hfull]

/-!
# Registering in order
-/

/-- When configurations have been registered in order, a look-up finds one exactly when the pattern
that stands for the address is registered, and it is the last one there.  Registering gives back the
last one before at the same pattern, and the trie is empty only if nothing has been registered. -/
theorem get?_of_registered (entries : List (Address × config)) :
    (forall a c, (empty.insertNodes entries).get? a = some c ↔
      ∃ p ∈ entries.map Prod.fst, Address.standing? (entries.map Prod.fst) a = some p ∧
        lastAt? p entries = some c) ∧
    (forall p c, (empty.insertNodes entries).register p c =
      (lastAt? p entries, empty.insertNodes (entries ++ [(p, c)]))) ∧
    ((empty.insertNodes entries).isEmpty ↔ entries = []) := by
  refine ⟨?_, ?_, isEmpty_insertNodes_iff entries⟩
  · intro a c
    rw [get?_insertNodes, Option.bind_eq_some_iff]
    constructor
    · rintro ⟨p, hstanding, hlast⟩
      exact ⟨p, isSome_lastAt?_iff.mp (by simp [hlast]), hstanding, hlast⟩
    · rintro ⟨p, _, hstanding, hlast⟩
      exact ⟨p, hstanding, hlast⟩
  · intro p c
    rw [register, storedAt?_insertNodes, insertNodes_append]
    rfl

end Trie
end MixedDomain
