import MixedDomain.Proofs.Address.ElementMap
import MixedDomain.Proofs.Entries.History
import MixedDomain.Proofs.Entries.Sorted

/-!
# Maps in two levels

## Kinds and names

A map from path elements can also be kept as a map from kinds to maps from names.
The map of a kind is made when its first element is put there, and it goes together
with its last one.

## The flat form

A map in two levels is tidy when both levels are in order and no kind is without
names, which all operations preserve.  Read off kind by kind it is a map in order,
which has the same things at the same elements.
-/

namespace MixedDomain
namespace KindMap

variable {item : Type} {map : List (String × List (String × item))} {e d : PathElement} {x : item}

def get? (e : PathElement) (map : List (String × List (String × item))) : Option item :=
  (Entries.get? e.key map).bind (Entries.get? e.value)

/-- Puts a thing at an element, into the map of its kind or into a new one. -/
def insert (e : PathElement) (x : item) (map : List (String × List (String × item))) :
    List (String × List (String × item)) :=
  let named := (Entries.get? e.key map).getD []
  Entries.insertSorted e.key (Entries.insertSorted e.value x named) map

/-- Removes an element, and its kind when it was the only one of it. -/
def erase (e : PathElement) (map : List (String × List (String × item))) :
    List (String × List (String × item)) :=
  match Entries.get? e.key map with
  | none => map
  | some named =>
      let others := Entries.erase e.value named
      if others.isEmpty then
        Entries.erase e.key map
      else
        Entries.modify e.key (fun _ => others) map

def update (e : PathElement) (x : item) (map : List (String × List (String × item))) :
    List (String × List (String × item)) :=
  Entries.modify e.key (Entries.modify e.value fun _ => x) map

def flatNames (kind : String) (named : List (String × item)) : List (PathElement × item) :=
  named.map fun entry => (⟨kind, entry.1⟩, entry.2)

def flat (map : List (String × List (String × item))) : List (PathElement × item) :=
  map.flatMap fun entry => flatNames entry.1 entry.2

/-- Both levels are in order, and there is a name of every kind. -/
structure Tidy (map : List (String × List (String × item))) : Prop where
  kinds : Entries.Ascending map
  names : ∀ entry ∈ map, Entries.Ascending entry.2
  filled : ∀ entry ∈ map, entry.2 ≠ []

theorem tidy_nil : Tidy ([] : List (String × List (String × item))) :=
  ⟨Entries.ascending_nil, nofun, nofun⟩

/-!
# Tidy maps
-/

theorem Tidy.distinct (h : Tidy map) : Entries.Distinct map :=
  h.kinds.distinct

theorem Tidy.of_get? {kind : String} {named : List (String × item)} (h : Tidy map)
    (hnamed : Entries.get? kind map = some named) : Entries.Ascending named ∧ named ≠ [] :=
  ⟨h.names _ (Entries.mem_of_get? hnamed), h.filled _ (Entries.mem_of_get? hnamed)⟩

theorem tidy_insert (h : Tidy map) (e : PathElement) (x : item) : Tidy (insert e x map) := by
  have hnamed : Entries.Ascending ((Entries.get? e.key map).getD []) := by
    cases hget : Entries.get? e.key map with
    | none => exact Entries.ascending_nil
    | some named => exact (h.of_get? hget).1
  refine ⟨Entries.ascending_insertSorted h.kinds _ _, ?_, ?_⟩
  · intro entry hentry
    rcases Entries.mem_insertSorted hentry with rfl | hold
    · exact Entries.ascending_insertSorted hnamed e.value x
    · exact h.names entry hold
  · intro entry hentry
    rcases Entries.mem_insertSorted hentry with rfl | hold
    · exact Entries.insertSorted_ne_nil _ _ _
    · exact h.filled entry hold

/-- A map of names that is changed stays in order and is not emptied. -/
theorem tidy_modify {kind : String} {f : List (String × item) -> List (String × item)} (h : Tidy map)
    (hf : forall named, (kind, named) ∈ map -> Entries.Ascending (f named) ∧ f named ≠ []) :
    Tidy (Entries.modify kind f map) := by
  refine ⟨Entries.ascending_modify h.kinds kind f, ?_, ?_⟩
  · intro entry hentry
    rcases Entries.mem_modify hentry with hold | ⟨named, hnamed, rfl⟩
    · exact h.names entry hold
    · exact (hf named hnamed).1
  · intro entry hentry
    rcases Entries.mem_modify hentry with hold | ⟨named, hnamed, rfl⟩
    · exact h.filled entry hold
    · exact (hf named hnamed).2

theorem tidy_erase (h : Tidy map) (e : PathElement) : Tidy (erase e map) := by
  unfold erase
  cases hget : Entries.get? e.key map with
  | none => exact h
  | some named =>
      have hothers : Entries.Ascending (Entries.erase e.value named) :=
        Entries.ascending_erase (h.of_get? hget).1 e.value
      by_cases hempty : (Entries.erase e.value named).isEmpty = true
      · simp only [hempty, if_true]
        refine ⟨Entries.ascending_erase h.kinds e.key, ?_, ?_⟩
        · exact fun entry hentry => h.names entry (Entries.mem_of_mem_erase hentry)
        · exact fun entry hentry => h.filled entry (Entries.mem_of_mem_erase hentry)
      · simp only [hempty]
        refine tidy_modify h fun _ _ => ⟨hothers, ?_⟩
        exact fun hnil => hempty (List.isEmpty_iff.mpr hnil)

theorem tidy_update (h : Tidy map) (e : PathElement) (x : item) : Tidy (update e x map) := by
  refine tidy_modify h fun named hnamed => ?_
  refine ⟨Entries.ascending_modify (h.names _ hnamed) e.value fun _ => x, fun hnil => ?_⟩
  have hkeys := Entries.keys_modify e.value (fun _ => x) named
  rw [hnil] at hkeys
  exact h.filled _ hnamed (List.map_eq_nil_iff.mp hkeys.symm)

/-!
# The view of each operation
-/

theorem value_ne_of_ne (h : d ≠ e) (hkey : d.key = e.key) : d.value ≠ e.value := by
  rcases d with ⟨k, v⟩
  rcases e with ⟨k', v'⟩
  exact fun hvalue => h (congrArg₂ PathElement.mk hkey hvalue)

theorem get?_insert_self (e : PathElement) (x : item) (map : List (String × List (String × item))) :
    get? e (insert e x map) = some x := by
  simp [get?, insert, Entries.get?_insertSorted]

theorem get?_insert_of_ne (h : d ≠ e) (x : item) (map : List (String × List (String × item))) :
    get? d (insert e x map) = get? d map := by
  rw [get?, insert, Entries.get?_insertSorted]
  by_cases hkey : d.key = e.key
  · rw [if_pos hkey.symm, Option.bind_some, Entries.get?_insertSorted,
      if_neg (value_ne_of_ne h hkey).symm, get?, hkey]
    cases Entries.get? e.key map <;> rfl
  · rw [if_neg (Ne.symm hkey), get?]

theorem get?_update_self (h : (get? e map).isSome) (x : item) :
    get? e (update e x map) = some x := by
  rw [get?, update, Entries.get?_modify_self]
  rcases Option.isSome_iff_exists.mp h with ⟨y, hy⟩
  rcases Option.bind_eq_some_iff.mp hy with ⟨named, hnamed, hvalue⟩
  simp [hnamed, Entries.get?_modify_self, hvalue]

theorem get?_update_of_ne (h : d ≠ e) (x : item) (map : List (String × List (String × item))) :
    get? d (update e x map) = get? d map := by
  rw [get?, update]
  by_cases hkey : d.key = e.key
  · rw [hkey, Entries.get?_modify_self, get?, hkey]
    cases Entries.get? e.key map with
    | none => rfl
    | some named => exact Entries.get?_modify_of_ne (value_ne_of_ne h hkey) _ named
  · rw [Entries.get?_modify_of_ne hkey, get?]

theorem get?_erase_self (h : Tidy map) (e : PathElement) : get? e (erase e map) = none := by
  unfold erase
  cases hget : Entries.get? e.key map with
  | none => simp [get?, hget]
  | some named =>
      by_cases hempty : (Entries.erase e.value named).isEmpty = true
      · simp [get?, hempty, Entries.get?_erase_self h.distinct]
      · have hnone := Entries.get?_erase_self (h.of_get? hget).1.distinct e.value
        simp [get?, hempty, Entries.get?_modify_self, hget, hnone]

theorem get?_erase_of_ne (h : Tidy map) (hne : d ≠ e) : get? d (erase e map) = get? d map := by
  unfold erase
  cases hget : Entries.get? e.key map with
  | none => rfl
  | some named =>
      by_cases hkey : d.key = e.key
      · have hothers := Entries.get?_erase_of_ne (value_ne_of_ne hne hkey) named
        by_cases hempty : (Entries.erase e.value named).isEmpty = true
        · have hnone : Entries.get? d.value named = none := by
            rw [← hothers, List.isEmpty_iff.mp hempty]
            rfl
          simp [get?, hempty, hkey, hget, hnone, Entries.get?_erase_self h.distinct]
        · simp [get?, hempty, hkey, hget, hothers, Entries.get?_modify_self]
      · by_cases hempty : (Entries.erase e.value named).isEmpty = true
        · simp [get?, hempty, Entries.get?_erase_of_ne hkey]
        · simp [get?, hempty, Entries.get?_modify_of_ne hkey]

theorem get?_of_mem (h : Tidy map) {entry : String × List (String × item)} (hentry : entry ∈ map)
    {named : String × item} (hnamed : named ∈ entry.2) :
    get? ⟨entry.1, named.1⟩ map = some named.2 := by
  rw [get?, Entries.get?_of_mem h.distinct hentry]
  exact Entries.get?_of_mem (h.names entry hentry).distinct hnamed

/-!
# The flat form
-/

theorem flat_cons (kind : String) (named : List (String × item))
    (rest : List (String × List (String × item))) :
    flat ((kind, named) :: rest) = flatNames kind named ++ flat rest :=
  List.flatMap_cons

theorem get?_flatNames (e : PathElement) (kind : String) (named : List (String × item)) :
    ElementMap.get? e (flatNames kind named) =
      if kind = e.key then Entries.get? e.value named else none := by
  induction named with
  | nil => simp [flatNames, ElementMap.get?, Entries.get?]
  | cons entry rest ih =>
      rcases e with ⟨k, v⟩
      simp only [flatNames, List.map_cons, ElementMap.get?, Entries.get?, PathElement.mk.injEq]
      simp only [flatNames] at ih
      rw [ih]
      by_cases hkind : kind = k <;> simp [hkind]

theorem get?_flat (h : Entries.Distinct map) (e : PathElement) :
    ElementMap.get? e (flat map) = get? e map := by
  induction map with
  | nil => rfl
  | cons entry rest ih =>
      rcases entry with ⟨kind, named⟩
      rcases List.nodup_cons.mp h with ⟨hkind, hrest⟩
      rw [flat_cons, ElementMap.get?_append, ih hrest, get?_flatNames, get?, get?, Entries.get?]
      by_cases he : kind = e.key
      · have hnone : Entries.get? e.key rest = none := by
          rw [Entries.get?_eq_none_iff, ← he]
          exact hkind
        simp [he, hnone]
      · simp [he]

theorem ordered_flat (h : Tidy map) : ElementMap.Ordered (flat map) := by
  rw [ElementMap.Ordered, flat, List.pairwise_flatMap]
  constructor
  · intro entry hentry
    rw [flatNames, List.pairwise_map]
    refine List.Pairwise.imp ?_ (List.pairwise_map.mp (h.names entry hentry))
    exact fun hlt => (PathElement.compare_eq_lt_iff _ _).mpr (Or.inr ⟨rfl, hlt⟩)
  · refine List.Pairwise.imp ?_ (List.pairwise_map.mp h.kinds)
    intro first second hlt x hx y hy
    rcases List.mem_map.mp hx with ⟨_, _, rfl⟩
    rcases List.mem_map.mp hy with ⟨_, _, rfl⟩
    exact (PathElement.compare_eq_lt_iff _ _).mpr (Or.inl hlt)

theorem Tidy.of_cons {entry : String × List (String × item)} (h : Tidy (entry :: map)) : Tidy map :=
  ⟨(List.pairwise_cons.mp h.kinds).2, fun other hmem => h.names other (List.mem_cons_of_mem _ hmem),
    fun other hmem => h.filled other (List.mem_cons_of_mem _ hmem)⟩

theorem mem_keys_of_mem_flat {pair : PathElement × item} (h : pair ∈ flat map) :
    pair.1.key ∈ Entries.keys map := by
  rcases List.mem_flatMap.mp h with ⟨entry, hentry, hpair⟩
  rcases List.mem_map.mp hpair with ⟨_, _, rfl⟩
  exact List.mem_map_of_mem hentry

theorem kinds_flat (h : Tidy map) : ElementMap.kinds (flat map) = Entries.keys map := by
  induction map with
  | nil => rfl
  | cons entry rest ih =>
      rcases entry with ⟨kind, named⟩
      have hkind : kind ∉ Entries.keys rest := (List.nodup_cons.mp h.distinct).1
      have hrest := ih h.of_cons
      have hothers : ((ElementMap.elements (flat rest)).map PathElement.key).filter (!· == kind) =
          (ElementMap.elements (flat rest)).map PathElement.key := by
        rw [List.filter_eq_self]
        intro key hkey
        rcases List.mem_map.mp hkey with ⟨_, helement, rfl⟩
        rcases List.mem_map.mp helement with ⟨pair, hpair, rfl⟩
        have hne : pair.1.key ≠ kind := fun heq => hkind (heq ▸ mem_keys_of_mem_flat hpair)
        simpa using hne
      -- The elements of the first kind come first, and there is at least one.
      cases named with
      | nil => exact absurd rfl (h.filled _ List.mem_cons_self)
      | cons first others =>
          have hsplit : (ElementMap.elements (flat ((kind, first :: others) :: rest))).map
                PathElement.key =
              kind :: (others.map (fun _ => kind) ++
                (ElementMap.elements (flat rest)).map PathElement.key) := by
            simp [flat_cons, flatNames, ElementMap.elements, Function.comp_def]
          have hsame : (others.map fun _ => kind).filter (!· == kind) = [] := by
            simp
          rw [ElementMap.kinds, hsplit, List.eraseDups_cons, List.filter_append, hsame,
            List.nil_append, hothers]
          exact congrArg (kind :: ·) hrest

theorem exists_isSome_get? {named : List (String × item)} (h : named ≠ []) :
    exists name, (Entries.get? name named).isSome := by
  cases named with
  | nil => exact absurd rfl h
  | cons entry rest => exact ⟨entry.1, by simp [Entries.get?]⟩

theorem rel_names_iff {other : Type} {r : item -> other -> Prop} {x? : Option (List (String × item))}
    {y? : Option (List (String × other))} (hx : ∀ x ∈ x?, Entries.Ascending x ∧ x ≠ [])
    (hy : ∀ y ∈ y?, Entries.Ascending y ∧ y ≠ []) :
    Option.Rel (List.Forall₂ (List.PairRel r)) x? y? ↔
      forall name, Option.Rel r (x?.bind (Entries.get? name)) (y?.bind (Entries.get? name)) := by
  cases x? with
  | none =>
      cases y? with
      | none => simp
      | some y =>
          rcases exists_isSome_get? (hy y rfl).2 with ⟨name, hname⟩
          refine iff_of_false (by simp) fun hall => ?_
          exact absurd ((Option.isSome_iff_of_rel (hall name)).mpr hname) (by simp)
  | some x =>
      cases y? with
      | none =>
          rcases exists_isSome_get? (hx x rfl).2 with ⟨name, hname⟩
          refine iff_of_false (by simp) fun hall => ?_
          exact absurd ((Option.isSome_iff_of_rel (hall name)).mp hname) (by simp)
      | some y =>
          rw [Option.rel_some_some, Entries.forall₂_iff_rel_get? (hx x rfl).1 (hy y rfl).1]
          rfl

/-- Tidy maps have the same kinds with the same names and related things just if they are related
at every element. -/
theorem forall₂_iff_rel_get? {other : Type} {r : item -> other -> Prop}
    {map' : List (String × List (String × other))} (h : Tidy map) (h' : Tidy map') :
    List.Forall₂ (List.PairRel (List.Forall₂ (List.PairRel r))) map map' ↔
      forall e, Option.Rel r (get? e map) (get? e map') := by
  rw [Entries.forall₂_iff_rel_get? h.kinds h'.kinds]
  constructor
  · intro hall e
    exact (rel_names_iff (fun _ => h.of_get?) (fun _ => h'.of_get?)).mp (hall e.key) e.value
  · intro hall kind
    refine (rel_names_iff (fun _ => h.of_get?) (fun _ => h'.of_get?)).mpr fun name => ?_
    exact hall ⟨kind, name⟩

end KindMap
end MixedDomain
