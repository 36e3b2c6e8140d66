import Mathlib.Data.Set.Function
import MixedDomain.Entries.Sorted
import MixedDomain.Value.Basic

/-!
# Moving entries

## Names

Removing a name takes just this name away when names are distinct, and inserting
one adds just this name.

## Renamings

Entries are renamed by a function when everything is found under the name that the
function gives, and no other name is there.  Renamings compose.  Moving the thing
under one name to another name is a renaming unless it replaces something.
-/

namespace MixedDomain
namespace Entries

variable {item : Type} {entries before mid after : List (String × item)}
  {key name newName : String}

theorem isSome_get?_iff : (get? key entries).isSome ↔ key ∈ keys entries := by
  rw [Option.isSome_iff_ne_none, ne_eq, get?_eq_none_iff, not_not]

theorem keys_erase (key : String) (entries : List (String × item)) :
    keys (erase key entries) = (keys entries).erase key := by
  induction entries with
  | nil =>
      rfl
  | cons entry rest ih =>
      rcases entry with ⟨k, x⟩
      by_cases hk : k = key
      · simp [erase, keys, hk]
      · simpa [erase, keys, hk] using ih

theorem distinct_erase (h : Distinct entries) (key : String) : Distinct (erase key entries) := by
  rw [Distinct, keys_erase]
  exact h.erase key

theorem mem_keys_erase (h : Distinct entries) :
    key ∈ keys (erase name entries) ↔ key ≠ name ∧ key ∈ keys entries := by
  rw [keys_erase]
  exact h.mem_erase_iff

theorem mem_keys_insert (x : item) :
    key ∈ keys (insert name x entries) ↔ key = name ∨ key ∈ keys entries := by
  by_cases hname : name ∈ keys entries
  · rw [keys_insert_of_mem x hname]
    constructor
    · exact Or.inr
    · rintro (rfl | hkey)
      · exact hname
      · exact hkey
  · rw [keys_insert_of_not_mem x hname, List.mem_append, List.mem_singleton, or_comm]

/-!
# Membership
-/

theorem mem_insert {x : item} {entry : String × item} (h : entry ∈ insert key x entries) :
    entry = (key, x) ∨ entry ∈ entries := by
  induction entries with
  | nil =>
      exact Or.inl (List.mem_singleton.mp h)
  | cons first rest ih =>
      rcases first with ⟨k, y⟩
      simp only [insert] at h
      split at h
      · rename_i hk
        rcases List.mem_cons.mp h with heq | hrest
        · exact Or.inl (by rw [heq, hk])
        · exact Or.inr (List.mem_cons_of_mem _ hrest)
      · rcases List.mem_cons.mp h with heq | hrest
        · exact Or.inr (by simp [heq])
        · rcases ih hrest with heq | hmem
          · exact Or.inl heq
          · exact Or.inr (List.mem_cons_of_mem _ hmem)

theorem mem_of_get? {x : item} (h : get? key entries = some x) : (key, x) ∈ entries := by
  induction entries with
  | nil =>
      cases h
  | cons first rest ih =>
      rcases first with ⟨k, y⟩
      simp only [get?] at h
      split at h
      · rename_i hk
        cases h
        simp [hk]
      · exact List.mem_cons_of_mem _ (ih h)

theorem mem_ofList {pairs : List (String × item)} {entry : String × item}
    (h : entry ∈ ofList pairs) : entry ∈ pairs := by
  have hfold : forall (entries : List (String × item)),
      (∀ entry ∈ entries, entry ∈ pairs) ->
      entry ∈ pairs.foldl (fun entries pair => insert pair.1 pair.2 entries) entries ->
      entry ∈ pairs := by
    intro entries hentries
    apply List.foldlRecOn (motive := fun found => entry ∈ found -> entry ∈ pairs)
    · exact hentries entry
    · intro found hfound pair hpair hmem
      rcases mem_insert hmem with rfl | hold
      · exact hpair
      · exact hfound hold
  exact hfold [] (fun _ hmem => nomatch hmem) h

theorem mem_insertSorted {x : item} {entry : String × item}
    (h : entry ∈ insertSorted key x entries) : entry = (key, x) ∨ entry ∈ entries := by
  induction entries with
  | nil =>
      exact Or.inl (List.mem_singleton.mp h)
  | cons first rest ih =>
      simp only [insertSorted] at h
      split at h
      · exact List.mem_cons.mp h
      · split at h
        · rcases List.mem_cons.mp h with rfl | hrest
          · exact Or.inl rfl
          · exact Or.inr (List.mem_cons_of_mem _ hrest)
        · rcases List.mem_cons.mp h with rfl | hrest
          · exact Or.inr List.mem_cons_self
          · rcases ih hrest with rfl | hmem
            · exact Or.inl rfl
            · exact Or.inr (List.mem_cons_of_mem _ hmem)

theorem get?_insertSorted (key other : String) (x : item) (entries : List (String × item)) :
    get? other (insertSorted key x entries) = if key = other then some x else get? other entries := by
  induction entries with
  | nil => rfl
  | cons entry rest ih =>
      obtain ⟨k, y⟩ := entry
      simp only [insertSorted]
      split
      · rfl
      · split
        case isFalse.isTrue heq =>
            subst heq
            by_cases hkey : key = other <;> simp [get?, hkey]
        case isFalse.isFalse hne =>
            rw [get?, get?, ih]
            by_cases hk : k = other
            · subst hk
              rw [if_pos rfl, if_pos rfl, if_neg hne]
            · rw [if_neg hk, if_neg hk]

/-!
# Entries under other names
-/

section

variable {other : String -> Bool}

theorem filter_insert (x : item) (hkey : other key = false) :
    (insert key x entries).filter (fun entry => other entry.1) =
      entries.filter fun entry => other entry.1 := by
  induction entries with
  | nil =>
      simp [insert, hkey]
  | cons first rest ih =>
      rcases first with ⟨k, y⟩
      by_cases hk : k = key
      · simp [insert, hk, hkey]
      · simp [insert, hk, List.filter_cons, ih]

theorem filter_erase (hkey : other key = false) :
    (erase key entries).filter (fun entry => other entry.1) =
      entries.filter fun entry => other entry.1 := by
  induction entries with
  | nil =>
      rfl
  | cons first rest ih =>
      rcases first with ⟨k, y⟩
      by_cases hk : k = key
      · simp [erase, hk, hkey]
      · simp [erase, hk, List.filter_cons, ih]

end

/-!
# Renamings
-/

/-- Whether everything keeps its value under the name that a function gives, and no other name is
there. -/
structure RenamesBy (f : String -> String) (before after : List (String × item)) : Prop where
  moved : ∀ key ∈ keys before, get? (f key) after = get? key before
  only : ∀ key ∈ keys after, ∃ k ∈ keys before, f k = key

theorem RenamesBy.mem_keys {f : String -> String} (h : RenamesBy f before after)
    (hkey : key ∈ keys before) : f key ∈ keys after := by
  rw [← isSome_get?_iff, h.moved key hkey]
  exact isSome_get?_iff.mpr hkey

theorem RenamesBy.comp {f g : String -> String} (hf : RenamesBy f before mid)
    (hg : RenamesBy g mid after) : RenamesBy (g ∘ f) before after := by
  constructor
  · intro key hkey
    exact (hg.moved (f key) (hf.mem_keys hkey)).trans (hf.moved key hkey)
  · intro key hkey
    rcases hg.only key hkey with ⟨k, hk, rfl⟩
    rcases hf.only k hk with ⟨k', hk', rfl⟩
    exact ⟨k', hk', rfl⟩

/-- The thing under a name is found under the new name, also if there is none. -/
theorem RenamesBy.get?_of_injOn {f : String -> String} (h : RenamesBy f before after)
    {names : Set String} (hinj : Set.InjOn f names) (hnames : ∀ key ∈ keys before, key ∈ names)
    (hkey : key ∈ names) : get? (f key) after = get? key before := by
  by_cases hthere : key ∈ keys before
  · exact h.moved key hthere
  · rw [(get?_eq_none_iff key before).mpr hthere, get?_eq_none_iff]
    intro hmem
    rcases h.only _ hmem with ⟨other, hother, heq⟩
    exact hthere (hinj (hnames other hother) hkey heq ▸ hother)

/-!
# Moves
-/

def move (name newName : String) (entries : List (String × item)) : List (String × item) :=
  match get? name entries with
  | some x => insert newName x (erase name entries)
  | none => entries

theorem distinct_move (h : Distinct entries) (name newName : String) :
    Distinct (move name newName entries) := by
  unfold move
  split
  · exact distinct_insert _ (distinct_erase h name)
  · exact h

theorem mem_keys_move (h : Distinct entries) : key ∈ keys (move name newName entries) ↔
    ∃ k ∈ keys entries, (if k = name then newName else k) = key := by
  unfold move
  cases hget : get? name entries with
  | none =>
      have hname := (get?_eq_none_iff name entries).mp hget
      constructor
      · intro hkey
        exact ⟨key, hkey, if_neg (ne_of_mem_of_not_mem hkey hname)⟩
      · rintro ⟨k, hk, rfl⟩
        rwa [if_neg (ne_of_mem_of_not_mem hk hname)]
  | some x =>
      have hname : name ∈ keys entries := isSome_get?_iff.mp (by simp [hget])
      simp only [mem_keys_insert, mem_keys_erase h]
      constructor
      · rintro (rfl | ⟨hne, hkey⟩)
        · exact ⟨name, hname, if_pos rfl⟩
        · exact ⟨key, hkey, if_neg hne⟩
      · rintro ⟨k, hk, rfl⟩
        by_cases hk' : k = name
        · exact Or.inl (if_pos hk')
        · rw [if_neg hk']
          exact Or.inr ⟨hk', hk⟩

theorem renamesBy_move (h : Distinct entries)
    (hinj : Set.InjOn (fun k => if k = name then newName else k) {k | k ∈ keys entries}) :
    RenamesBy (fun k => if k = name then newName else k) entries (move name newName entries) := by
  constructor
  · intro key hkey
    unfold move
    cases hget : get? name entries with
    | none =>
        have hname := (get?_eq_none_iff name entries).mp hget
        simp only [if_neg (ne_of_mem_of_not_mem hkey hname)]
    | some x =>
        have hname : name ∈ keys entries := isSome_get?_iff.mp (by simp [hget])
        by_cases hkey' : key = name
        · simp only [if_pos hkey']
          rw [get?_insert_self, hkey', hget]
        · have hne : key ≠ newName := by
            intro heq
            exact hkey' (hinj hkey hname (by simp [heq]))
          simp only [if_neg hkey']
          rw [get?_insert_of_ne hne, get?_erase_of_ne hkey']
  · intro key hkey
    exact (mem_keys_move h).mp hkey

theorem filter_move {other : String -> Bool} (hname : other name = false)
    (hnew : other newName = false) :
    (move name newName entries).filter (fun entry => other entry.1) =
      entries.filter fun entry => other entry.1 := by
  unfold move
  split
  · exact (filter_insert _ hnew).trans (filter_erase hname)
  · rfl

end Entries

/-!
# Entries of values
-/

theorem Value.get?_erase_of_ne {key name : String} (h : key ≠ name) (v : Value) :
    (v.erase name).get? key = v.get? key := by
  cases v with
  | object entries => exact Entries.get?_erase_of_ne h entries
  | _ => rfl

theorem Value.get?_of_set {key name : String} (h : key ≠ name) {v v' value : Value}
    (hset : v.set name value = .ok v') : v'.get? key = v.get? key := by
  cases v with
  | undefined =>
      cases hset
      exact Entries.get?_insert_of_ne h value []
  | object entries =>
      cases hset
      exact Entries.get?_insert_of_ne h value entries
  | _ => cases hset

theorem Value.get?_of_set_self {key : String} {v v' value : Value}
    (hset : v.set key value = .ok v') : v'.get? key = some value := by
  cases v with
  | undefined =>
      cases hset
      exact Entries.get?_insert_self key value []
  | object entries =>
      cases hset
      exact Entries.get?_insert_self key value entries
  | _ => cases hset

/-!
# Values whose names are distinct
-/

namespace Value

/-- Whether a property of values is kept when entries are removed and when they are set. -/
structure KeptByEdits (p : Value -> Prop) : Prop where
  erase : forall {v : Value} (key : String), p v -> p (v.erase key)
  set : forall {v v' value : Value} {key : String}, p v -> v.set key value = .ok v' -> p v'

/-- Whether entries of values with a property can be removed and set, and the property is kept. -/
structure TakesEdits (p : Value -> Prop) : Prop where
  erase : forall {v : Value} (key : String), p v -> p (v.erase key)
  set : forall {v : Value} (key : String) (value : Value), p v ->
    exists v', v.set key value = .ok v' ∧ p v'

theorem TakesEdits.keptByEdits {p : Value -> Prop} (h : TakesEdits p) : KeptByEdits p := by
  constructor
  case erase => exact h.erase
  case set =>
    intro v v' value key hv hset
    rcases h.set key value hv with ⟨w, hw, hp⟩
    rw [hset] at hw
    cases hw
    exact hp

def IsObject (v : Value) : Prop :=
  exists entries, v = .object entries

theorem takesEdits_isObject : TakesEdits IsObject := by
  constructor
  case erase =>
    rintro _ key ⟨entries, rfl⟩
    exact ⟨_, rfl⟩
  case set =>
    rintro _ key value ⟨entries, rfl⟩
    exact ⟨_, rfl, _, rfl⟩

def HasDistinctNames (v : Value) : Prop :=
  forall entries, v = .object entries -> Entries.Distinct entries

theorem hasDistinctNames_object {entries : List (String × Value)} (h : Entries.Distinct entries) :
    (Value.object entries).HasDistinctNames := by
  rintro _ ⟨⟩
  exact h

theorem keptByEdits_hasDistinctNames : KeptByEdits HasDistinctNames := by
  constructor
  case erase =>
    intro v key h
    cases v with
    | object entries => exact hasDistinctNames_object (Entries.distinct_erase (h entries rfl) key)
    | _ => exact h
  case set =>
    intro v v' value key h hset
    cases v with
    | undefined =>
        cases hset
        exact hasDistinctNames_object (List.pairwise_singleton _ key)
    | object entries =>
        cases hset
        exact hasDistinctNames_object (Entries.distinct_insert value (h entries rfl))
    | _ => cases hset

theorem HasDistinctNames.not_hasDefined_erase {v : Value} (h : v.HasDistinctNames) {key : String}
    (hkey : ¬ v.hasDefined key) : ¬ (v.erase key).hasDefined key := by
  cases v with
  | object entries =>
      have hnone : Entries.get? key (Entries.erase key entries) = none := by
        apply (Entries.get?_eq_none_iff key _).mpr
        exact fun hmem => ((Entries.mem_keys_erase (h entries rfl)).mp hmem).1 rfl
      simp [Value.hasDefined, Value.getOrUndefined, Value.erase, Value.get?, hnone, isDefined]
  | _ => exact hkey

/-- Whether a value is undefined or an object with distinct names. -/
inductive IsModel : Value -> Prop where
  | undefined : IsModel .undefined
  | object {entries : List (String × Value)} :
      Entries.Distinct entries -> IsModel (.object entries)

theorem IsModel.hasDistinctNames {v : Value} (h : v.IsModel) : v.HasDistinctNames := by
  cases h with
  | undefined => exact nofun
  | object hdistinct => exact hasDistinctNames_object hdistinct

theorem IsModel.get?_erase_self {v : Value} (h : v.IsModel) (key : String) :
    (v.erase key).get? key = none := by
  cases h with
  | undefined => rfl
  | object hdistinct =>
      apply (Entries.get?_eq_none_iff key _).mpr
      exact fun hkey => ((Entries.mem_keys_erase hdistinct).mp hkey).1 rfl

theorem takesEdits_isModel : TakesEdits IsModel := by
  constructor
  case erase =>
    intro v key h
    cases h with
    | undefined => exact .undefined
    | object hdistinct => exact .object (Entries.distinct_erase hdistinct key)
  case set =>
    intro v key value h
    cases h with
    | undefined => exact ⟨_, rfl, .object (List.pairwise_singleton _ key)⟩
    | object hdistinct => exact ⟨_, rfl, .object (Entries.distinct_insert value hdistinct)⟩

theorem keptByEdits_isModel : KeptByEdits IsModel :=
  takesEdits_isModel.keptByEdits

end Value
end MixedDomain
