/-!
# Entries in order of insertion

## Operations

A finite map from names to things, kept as a list of pairs.  A new name goes to
the end, a name that is there already keeps its place, and removing a name does
not move the others.

## Distinct names

The operations keep the names distinct, and the view `get?` determines them all.
-/

namespace MixedDomain
namespace Entries

variable {item : Type}

def get? (key : String) : List (String × item) -> Option item
  | [] => none
  | (k, x) :: rest => if k = key then some x else get? key rest

def contains (key : String) (entries : List (String × item)) : Bool :=
  (get? key entries).isSome

/-- Replaces the thing under a name in its place, or adds the name at the end. -/
def insert (key : String) (x : item) : List (String × item) -> List (String × item)
  | [] => [(key, x)]
  | (k, y) :: rest => if k = key then (k, x) :: rest else (k, y) :: insert key x rest

def erase (key : String) : List (String × item) -> List (String × item)
  | [] => []
  | (k, x) :: rest => if k = key then rest else (k, x) :: erase key rest

/-- Inserts a thing, and gives back the one that it replaces. -/
def exchange (key : String) (x : item) :
    List (String × item) -> Option item × List (String × item)
  | [] => (none, [(key, x)])
  | (k, y) :: rest =>
      if k = key then
        (some y, (k, x) :: rest)
      else
        let (old, rest) := exchange key x rest
        (old, (k, y) :: rest)

/-- Removes a name, and gives back the thing that was under it. -/
def extract (key : String) : List (String × item) -> Option item × List (String × item)
  | [] => (none, [])
  | (k, x) :: rest =>
      if k = key then
        (some x, rest)
      else
        let (old, rest) := extract key rest
        (old, (k, x) :: rest)

def modify (key : String) (f : item -> item) : List (String × item) -> List (String × item)
  | [] => []
  | (k, x) :: rest => if k = key then (k, f x) :: rest else (k, x) :: modify key f rest

/-- Changes every thing, which may depend on its place. -/
def modifyAll (f : Nat -> item -> item) (entries : List (String × item)) :
    List (String × item) :=
  entries.mapIdx fun place entry => (entry.1, f place entry.2)

def keys (entries : List (String × item)) : List String :=
  entries.map Prod.fst

def ofList (pairs : List (String × item)) : List (String × item) :=
  pairs.foldl (fun entries pair => insert pair.1 pair.2 entries) []

def fill (x : item) (entries : List (String × item)) : List (String × item) :=
  entries.map fun entry => (entry.1, x)

def Distinct (entries : List (String × item)) : Prop :=
  (keys entries).Nodup

/-!
# The view of each operation
-/

theorem get?_insert_self (key : String) (x : item) (entries : List (String × item)) :
    get? key (insert key x entries) = some x := by
  induction entries with
  | nil =>
      simp [insert, get?]
  | cons entry rest ih =>
      obtain ⟨k, y⟩ := entry
      by_cases h : k = key <;> simp [insert, get?, h, ih]

theorem get?_insert_of_ne {key other : String} (h : other ≠ key) (x : item)
    (entries : List (String × item)) :
    get? other (insert key x entries) = get? other entries := by
  induction entries with
  | nil =>
      simp [insert, get?, Ne.symm h]
  | cons entry rest ih =>
      obtain ⟨k, y⟩ := entry
      by_cases hk : k = key
      · have hk' : ¬ k = other := fun e => h (e.symm.trans hk)
        have hk'' : ¬ key = other := fun e => h e.symm
        simp [insert, get?, hk, hk'']
      · by_cases ho : k = other
        · subst ho
          simp [insert, get?, hk]
        · simp [insert, get?, hk, ho, ih]

theorem get?_erase_of_ne {key other : String} (h : other ≠ key) (entries : List (String × item)) :
    get? other (erase key entries) = get? other entries := by
  induction entries with
  | nil =>
      rfl
  | cons entry rest ih =>
      obtain ⟨k, y⟩ := entry
      by_cases hk : k = key
      · have hk'' : ¬ key = other := fun e => h e.symm
        simp [erase, get?, hk, hk'']
      · by_cases ho : k = other
        · subst ho
          simp [erase, get?, hk]
        · simp [erase, get?, hk, ho, ih]

theorem get?_eq_none_iff (key : String) (entries : List (String × item)) :
    get? key entries = none ↔ key ∉ keys entries := by
  induction entries with
  | nil =>
      simp [get?, keys]
  | cons entry rest ih =>
      obtain ⟨k, y⟩ := entry
      by_cases h : k = key
      · simp [get?, keys, h]
      · have h' : ¬ key = k := fun e => h e.symm
        simpa [get?, keys, h, h'] using ih

theorem keys_insert_of_mem {key : String} (x : item) {entries : List (String × item)}
    (h : key ∈ keys entries) : keys (insert key x entries) = keys entries := by
  induction entries with
  | nil =>
      simp [keys] at h
  | cons entry rest ih =>
      obtain ⟨k, y⟩ := entry
      by_cases hk : k = key
      · simp [insert, keys, hk]
      · have hne : ¬ key = k := fun e => hk e.symm
        have hrest : key ∈ keys rest := by simpa [keys, hne] using h
        simpa [insert, keys, hk] using ih hrest

theorem keys_insert_of_not_mem {key : String} (x : item) {entries : List (String × item)}
    (h : key ∉ keys entries) : keys (insert key x entries) = keys entries ++ [key] := by
  induction entries with
  | nil =>
      rfl
  | cons entry rest ih =>
      obtain ⟨k, y⟩ := entry
      have hk : ¬ k = key := fun e => h (by simp [keys, e])
      have hrest : key ∉ keys rest := fun hm => h (by simpa [keys] using Or.inr hm)
      simpa [insert, keys, hk] using ih hrest

theorem distinct_insert {key : String} (x : item) {entries : List (String × item)}
    (h : Distinct entries) : Distinct (insert key x entries) := by
  unfold Distinct at *
  by_cases hm : key ∈ keys entries
  · rw [keys_insert_of_mem x hm]
    exact h
  · rw [keys_insert_of_not_mem x hm, List.nodup_append]
    refine ⟨h, by simp, ?_⟩
    intro a ha b hb
    simp only [List.mem_singleton] at hb
    subst hb
    exact fun e => hm (e ▸ ha)

end Entries
end MixedDomain
