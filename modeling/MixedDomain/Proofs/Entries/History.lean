import Mathlib.Logic.Function.Basic
import MixedDomain.Proofs.Entries

/-!
# Histories of entries

## Tables

A table is what a caller sees of entries: the names in their order, and what is found
under each name.  Each operation has a simple meaning for tables: a new name goes to
the end, a name that is there keeps its place, and removing one moves no other.

## Histories

Whatever sequence of operations is carried out, the names stay distinct, the answers
are those that the table gives, and in the end the table is what the meanings of the
operations make of the first one.
-/

namespace MixedDomain
namespace Entries

variable {item : Type} {entries : List (String × item)} {key name : String}

/-- An operation on entries. -/
inductive Edit (item : Type) where
  | insert (key : String) (x : item)
  | remove (key : String)
  | update (key : String) (f : item -> item)
  | updateAll (f : Nat -> item -> item)

/-- What an operation answers, and the entries after it. -/
def Edit.on (entries : List (String × item)) : Edit item -> Option item × List (String × item)
  | .insert key x => exchange key x entries
  | .remove key => extract key entries
  | .update key f => (get? key entries, modify key f entries)
  | .updateAll f => (none, modifyAll f entries)

/-- The answers of operations that are carried out one after the other, and the state at the end. -/
def replay {state : Type} (step : state -> Edit item -> Option item × state) :
    List (Edit item) -> state -> List (Option item) × state
  | [], s => ([], s)
  | edit :: rest, s =>
      let (answer, s) := step s edit
      let (answers, s) := replay step rest s
      (answer :: answers, s)

/-- Names in an order, and what is found under each. -/
@[ext]
structure Table (item : Type) where
  names : List String
  find? : String -> Option item

namespace Table

/-- The table without names. -/
def empty : Table item :=
  ⟨[], fun _ => none⟩

/-- The table in which a thing is found under a name, which is new or keeps its place. -/
def insert (key : String) (x : item) (t : Table item) : Table item :=
  ⟨if key ∈ t.names then t.names else t.names ++ [key], Function.update t.find? key (some x)⟩

/-- The table without a name. -/
def remove (key : String) (t : Table item) : Table item :=
  ⟨t.names.filter (· != key), Function.update t.find? key none⟩

def update (key : String) (f : item -> item) (t : Table item) : Table item :=
  ⟨t.names, Function.update t.find? key ((t.find? key).map f)⟩

/-- The table in which all things are other ones, according to the places of their names. -/
def updateAll (f : Nat -> item -> item) (t : Table item) : Table item :=
  ⟨t.names, fun name => (t.find? name).map (f (t.names.idxOf name))⟩

def ofList (pairs : List (String × item)) : Table item :=
  pairs.foldl (fun t pair => t.insert pair.1 pair.2) empty

end Table

/-- What an operation answers about a table, and what it makes of it. -/
def Edit.onTable (t : Table item) : Edit item -> Option item × Table item
  | .insert key x => (t.find? key, t.insert key x)
  | .remove key => (t.find? key, t.remove key)
  | .update key f => (t.find? key, t.update key f)
  | .updateAll f => (none, t.updateAll f)

def table (entries : List (String × item)) : Table item :=
  ⟨keys entries, fun key => get? key entries⟩

/-!
# Each operation
-/

theorem exchange_eq (key : String) (x : item) (entries : List (String × item)) :
    exchange key x entries = (get? key entries, insert key x entries) := by
  induction entries with
  | nil => rfl
  | cons entry rest ih =>
      simp only [exchange, get?, insert, ih]
      split <;> rfl

theorem extract_eq (key : String) (entries : List (String × item)) :
    extract key entries = (get? key entries, erase key entries) := by
  induction entries with
  | nil => rfl
  | cons entry rest ih =>
      simp only [extract, get?, erase, ih]
      split <;> rfl

theorem keys_modify (key : String) (f : item -> item) (entries : List (String × item)) :
    keys (modify key f entries) = keys entries := by
  induction entries with
  | nil => rfl
  | cons entry rest ih =>
      simp only [modify]
      split
      · rfl
      · exact congrArg (entry.1 :: ·) ih

theorem get?_modify_self (key : String) (f : item -> item) (entries : List (String × item)) :
    get? key (modify key f entries) = (get? key entries).map f := by
  induction entries with
  | nil => rfl
  | cons entry rest ih => by_cases hk : entry.1 = key <;> simp [modify, get?, hk, ih]

theorem get?_modify_of_ne (hne : name ≠ key) (f : item -> item) (entries : List (String × item)) :
    get? name (modify key f entries) = get? name entries := by
  induction entries with
  | nil => rfl
  | cons entry rest ih =>
      by_cases hk : entry.1 = key
      · simp [modify, get?, hk, Ne.symm hne]
      · simp [modify, get?, hk, ih]

theorem mem_modify {f : item -> item} {entry : String × item} (h : entry ∈ modify key f entries) :
    entry ∈ entries ∨ exists x, (key, x) ∈ entries ∧ entry = (key, f x) := by
  induction entries with
  | nil => cases h
  | cons first rest ih =>
      rcases first with ⟨k, y⟩
      simp only [modify] at h
      split at h
      · rename_i hk
        subst hk
        rcases List.mem_cons.mp h with rfl | hrest
        · exact Or.inr ⟨y, List.mem_cons_self, rfl⟩
        · exact Or.inl (List.mem_cons_of_mem _ hrest)
      · rcases List.mem_cons.mp h with rfl | hrest
        · exact Or.inl List.mem_cons_self
        · rcases ih hrest with hold | ⟨x, hx, rfl⟩
          · exact Or.inl (List.mem_cons_of_mem _ hold)
          · exact Or.inr ⟨x, List.mem_cons_of_mem _ hx, rfl⟩

theorem get?_erase_self (h : Distinct entries) (key : String) :
    get? key (erase key entries) = none := by
  rw [get?_eq_none_iff]
  exact fun hmem => ((mem_keys_erase h).mp hmem).1 rfl

theorem keys_modifyAll (f : Nat -> item -> item) (entries : List (String × item)) :
    keys (modifyAll f entries) = keys entries := by
  induction entries generalizing f with
  | nil => rfl
  | cons entry rest ih =>
      have hbelow := ih fun place => f (place + 1)
      simp only [keys, modifyAll] at hbelow
      simp [keys, modifyAll, hbelow]

theorem get?_modifyAll (f : Nat -> item -> item) (entries : List (String × item)) :
    get? key (modifyAll f entries) = (get? key entries).map (f ((keys entries).idxOf key)) := by
  induction entries generalizing f with
  | nil => rfl
  | cons entry rest ih =>
      rcases entry with ⟨k, x⟩
      by_cases hk : k = key
      · simp [modifyAll, get?, keys, hk]
      · have hbelow := ih fun place => f (place + 1)
        have hbeq : (k == key) = false := beq_eq_false_iff_ne.mpr hk
        simp only [modifyAll] at hbelow
        simp only [modifyAll, List.mapIdx_cons, get?, if_neg hk, hbelow, keys, List.map_cons,
          List.idxOf_cons, hbeq, cond_false]

theorem table_insert (key : String) (x : item) (entries : List (String × item)) :
    table (insert key x entries) = (table entries).insert key x := by
  refine Table.ext ?_ ?_
  · by_cases hmem : key ∈ keys entries
    · exact (keys_insert_of_mem x hmem).trans (if_pos hmem).symm
    · exact (keys_insert_of_not_mem x hmem).trans (if_neg hmem).symm
  · funext name
    show get? name (insert key x entries) =
      Function.update (fun name => get? name entries) key (some x) name
    by_cases hname : name = key
    · subst hname
      rw [get?_insert_self, Function.update_self]
    · rw [get?_insert_of_ne hname, Function.update_of_ne hname]

theorem table_erase (h : Distinct entries) (key : String) :
    table (erase key entries) = (table entries).remove key := by
  simp only [table, Table.remove, Table.mk.injEq]
  constructor
  · rw [keys_erase]
    exact h.erase_eq_filter key
  · funext name
    by_cases hname : name = key
    · subst hname
      rw [Function.update_self, get?_erase_self h]
    · rw [get?_erase_of_ne hname, Function.update_of_ne hname]

theorem table_modify (key : String) (f : item -> item) (entries : List (String × item)) :
    table (modify key f entries) = (table entries).update key f := by
  simp only [table, Table.update, Table.mk.injEq]
  refine ⟨keys_modify key f entries, ?_⟩
  funext name
  by_cases hname : name = key
  · subst hname
    rw [get?_modify_self, Function.update_self]
  · rw [get?_modify_of_ne hname, Function.update_of_ne hname]

theorem table_modifyAll (f : Nat -> item -> item) (entries : List (String × item)) :
    table (modifyAll f entries) = (table entries).updateAll f := by
  simp only [table, Table.updateAll, Table.mk.injEq]
  exact ⟨keys_modifyAll f entries, funext fun name => get?_modifyAll f entries⟩

theorem table_ofList (pairs : List (String × item)) : table (ofList pairs) = Table.ofList pairs := by
  have hfold : forall entries : List (String × item),
      table (pairs.foldl (fun entries pair => insert pair.1 pair.2 entries) entries) =
        pairs.foldl (fun t pair => t.insert pair.1 pair.2) (table entries) := by
    induction pairs with
    | nil => exact fun _ => rfl
    | cons pair rest ih =>
        intro entries
        rw [List.foldl_cons, List.foldl_cons, ih, table_insert]
  exact hfold []

/-!
# Sequences of operations
-/

theorem distinct_ofList (pairs : List (String × item)) : Distinct (ofList pairs) := by
  apply List.foldlRecOn (motive := Distinct)
  · exact List.nodup_nil
  · exact fun entries hentries pair _ => distinct_insert pair.2 hentries

theorem distinct_on (h : Distinct entries) (edit : Edit item) : Distinct (edit.on entries).2 := by
  cases edit with
  | insert key x =>
      rw [Edit.on, exchange_eq]
      exact distinct_insert x h
  | remove key =>
      rw [Edit.on, extract_eq]
      exact distinct_erase h key
  | update key f =>
      rw [Edit.on, Distinct, keys_modify]
      exact h
  | updateAll f =>
      rw [Edit.on, Distinct, keys_modifyAll]
      exact h

/-- Every operation does to the table what it means for tables, and answers accordingly. -/
theorem onTable_table (h : Distinct entries) (edit : Edit item) :
    edit.onTable (table entries) = ((edit.on entries).1, table (edit.on entries).2) := by
  cases edit with
  | insert key x => rw [Edit.on, exchange_eq, table_insert, Edit.onTable, table]
  | remove key => rw [Edit.on, extract_eq, table_erase h, Edit.onTable, table]
  | update key f => rw [Edit.on, table_modify, Edit.onTable, table]
  | updateAll f => rw [Edit.on, table_modifyAll, Edit.onTable]

/-- After any history the names are distinct, and the answers and the table are those that the
meanings of the operations give. -/
theorem replay_table (edits : List (Edit item)) (h : Distinct entries) :
    Distinct (replay (fun s edit => edit.on s) edits entries).2 ∧
      replay (fun t edit => edit.onTable t) edits (table entries) =
        ((replay (fun s edit => edit.on s) edits entries).1,
          table (replay (fun s edit => edit.on s) edits entries).2) := by
  induction edits generalizing entries with
  | nil => exact ⟨h, rfl⟩
  | cons edit rest ih =>
      rcases ih (distinct_on h edit) with ⟨hdistinct, hreplay⟩
      refine ⟨hdistinct, ?_⟩
      simp only [replay, onTable_table h edit, hreplay]

end Entries
end MixedDomain
