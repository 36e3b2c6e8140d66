import MixedDomain.Attribute.Ledger
import MixedDomain.Proofs.Entries.History
import MixedDomain.Proofs.Entries.Sorted

/-!
# Ledgers keep declarations

## In step

A ledger keeps declarations when its order is the order of the declared attributes, what
it says of each attribute is declared about it, and it has checks of fields just for the
attributes that have some.  Every call is answered alike and keeps the two in step.

## Putting together

No attribute is twice in the order, so what is taken out of a ledger is never asked for
again, and the descriptions are those of the declarations.
-/

namespace MixedDomain

/-!
# Changing declarations
-/

namespace AttributeDeclarations

variable {ds : AttributeDeclarations} {name other : String}

/-- What is declared about an attribute, which may be nothing. -/
def current (name : String) (ds : AttributeDeclarations) : AttributeDeclaration :=
  (Entries.get? name ds.declared).getD (AttributeDeclaration.ofName name)

theorem get?_eq_current (hname : name ∈ Entries.keys ds.declared) :
    Entries.get? name ds.declared = some (ds.current name) := by
  rcases Option.isSome_iff_exists.mp (Entries.isSome_get?_iff.mpr hname) with ⟨d, hd⟩
  rw [current, hd]
  rfl

theorem keys_modify (name : String) (f : AttributeDeclaration -> AttributeDeclaration)
    (ds : AttributeDeclarations) : Entries.keys (ds.modify name f).declared =
      if name ∈ Entries.keys ds.declared then Entries.keys ds.declared
      else Entries.keys ds.declared ++ [name] :=
  congrArg Entries.Table.names (Entries.table_insert name (f (ds.current name)) ds.declared)

theorem get?_modify (name other : String) (f : AttributeDeclaration -> AttributeDeclaration)
    (ds : AttributeDeclarations) : Entries.get? other (ds.modify name f).declared =
      if name = other then some (f (ds.current name)) else Entries.get? other ds.declared := by
  split
  case isTrue hname =>
      subst hname
      exact Entries.get?_insert_self name _ ds.declared
  case isFalse hname => exact Entries.get?_insert_of_ne (Ne.symm hname) _ ds.declared

theorem describe_eq_map (hdistinct : Entries.Distinct ds.declared) :
    ds.describe = (Entries.keys ds.declared).map fun name => (ds.current name).describe := by
  rw [describe, Entries.keys, List.map_map]
  apply List.map_congr_left
  intro entry hmem
  simp only [Function.comp_apply, current, Entries.get?_of_mem hdistinct hmem, Option.getD_some]

end AttributeDeclarations

/-- The checks of fields, if there are any. -/
def AttributeDeclaration.fieldChecks? (d : AttributeDeclaration) :
    Option (List (String × RejectCheck)) :=
  if d.fields.isEmpty then none else some d.fields

/-!
# In step
-/

namespace AttributeLedger

variable {l : AttributeLedger} {ds : AttributeDeclarations}

/-- Whether a ledger keeps what is declared. -/
structure Keeps (l : AttributeLedger) (ds : AttributeDeclarations) : Prop where
  path : l.path = ds.path
  order : l.order = Entries.keys ds.declared
  attributes : forall name, Entries.get? name l.attributes =
    (Entries.get? name ds.declared).map AttributeDeclaration.description
  fields : forall name, Entries.get? name l.fields =
    (Entries.get? name ds.declared).bind AttributeDeclaration.fieldChecks?
  distinct : Entries.Distinct ds.declared

theorem keeps_empty (path : String) : (empty path).Keeps (.empty path) where
  path := rfl
  order := rfl
  attributes _ := rfl
  fields _ := rfl
  distinct := List.nodup_nil

theorem Keeps.contains_iff (h : l.Keeps ds) (name : String) :
    Entries.contains name l.attributes = true ↔ name ∈ Entries.keys ds.declared := by
  rw [Entries.contains, h.attributes, Option.isSome_map, Entries.isSome_get?_iff]

theorem Keeps.newName?_eq (h : l.Keeps ds) (name : String) :
    l.newName? name = ds.newName? name := by
  rw [newName?, h.attributes, Option.bind_map]
  rfl

theorem Keeps.description_getD (h : l.Keeps ds) (name : String) :
    (Entries.get? name l.attributes).getD (.ofName name) = (ds.current name).description := by
  rw [h.attributes, AttributeDeclarations.current]
  cases Entries.get? name ds.declared <;> rfl

theorem Keeps.fieldChecks?_current (h : l.Keeps ds) (name : String) :
    Entries.get? name l.fields = (ds.current name).fieldChecks? := by
  rw [h.fields, AttributeDeclarations.current]
  cases Entries.get? name ds.declared <;> rfl

theorem keeps_edit (h : l.Keeps ds) (name : String)
    (f : AttributeDescription -> AttributeDescription) :
    (l.edit name f).Keeps (ds.modify name fun d => { d with description := f d.description }) := by
  constructor
  case path => exact h.path
  case order =>
      rw [AttributeDeclarations.keys_modify, ← h.order]
      exact if_congr ((h.contains_iff name).trans (h.order ▸ Iff.rfl)) rfl rfl
  case attributes =>
      intro other
      rw [edit, Entries.get?_insertSorted, AttributeDeclarations.get?_modify, h.description_getD,
        h.attributes]
      split <;> rfl
  case fields =>
      intro other
      rw [AttributeDeclarations.get?_modify]
      split
      case isTrue hname =>
          subst hname
          exact h.fieldChecks?_current name
      case isFalse => exact h.fields other
  case distinct => exact Entries.distinct_insert _ h.distinct

theorem keeps_editAll (h : l.Keeps ds) (names : List String)
    (f : AttributeDescription -> AttributeDescription) :
    (l.editAll names f).Keeps (ds.describeAll names f) := by
  induction names generalizing l ds with
  | nil => exact h
  | cons name rest ih => exact ih (keeps_edit h name f)

theorem keeps_addField (h : l.Keeps ds) {name : String}
    (hname : name ∈ Entries.keys ds.declared) (field : String) (check : RejectCheck) :
    (l.addField name field check).Keeps
      (ds.modify name fun d => { d with fields := d.fields ++ [(field, check)] }) := by
  constructor
  case path => exact h.path
  case order =>
      rw [AttributeDeclarations.keys_modify, if_pos hname]
      exact h.order
  case attributes =>
      intro other
      rw [AttributeDeclarations.get?_modify]
      split
      case isTrue hother =>
          subst hother
          exact (h.attributes name).trans (by rw [AttributeDeclarations.get?_eq_current hname]; rfl)
      case isFalse => exact h.attributes other
  case fields =>
      intro other
      rw [addField, Entries.extract_eq, Entries.get?_insertSorted,
        AttributeDeclarations.get?_modify]
      split
      case isTrue hother =>
          rw [h.fieldChecks?_current]
          cases hfields : (ds.current name).fields <;>
            simp [AttributeDeclaration.fieldChecks?, hfields]
      case isFalse hother => rw [Entries.get?_erase_of_ne (Ne.symm hother), h.fields]
  case distinct => exact Entries.distinct_insert _ h.distinct

/-!
# Calls
-/

/-- Whether a call is refused by both, and leaves the ledger as it is, or declares something in
both. -/
inductive AnswersAlike (l : AttributeLedger) (ds : AttributeDeclarations) (call : AttributeCall) :
    Prop where
  | accepted {l' : AttributeLedger} {ds' : AttributeDeclarations}
      (hl : l.answer call = (.ok (), l')) (hds : call.declareIn ds = .ok ds')
      (hkeeps : l'.Keeps ds')
  | refused {e : DescriptionError} (hl : l.answer call = (.error e, l))
      (hds : call.declareIn ds = .error e)

theorem Keeps.answersAlike (h : l.Keeps ds) (call : AttributeCall) : AnswersAlike l ds call := by
  cases call with
  | rename name newName =>
      cases hnew : ds.newName? name with
      | some existing =>
          have hl : l.newName? name = some existing := (h.newName?_eq name).trans hnew
          refine .refused (e := .duplicateRename ds.path name existing) ?_ ?_
          · simp only [answer, hl, h.path]
          · simp only [AttributeCall.declareIn, AttributeDeclarations.rename, hnew]
      | none =>
          have hl : l.newName? name = none := (h.newName?_eq name).trans hnew
          refine .accepted ?_ ?_ (keeps_edit h name (AttributeCall.rename name newName).change)
          · simp only [answer, hl]
          · simp only [AttributeCall.declareIn, AttributeDeclarations.rename, hnew]
            rfl
  | rejectField name field check =>
      by_cases hname : name ∈ Entries.keys ds.declared
      · refine .accepted ?_ ?_ (keeps_addField h hname field check)
        · exact if_pos ((h.contains_iff name).mpr hname)
        · exact if_pos (Entries.isSome_get?_iff.mpr hname)
      · refine .refused (e := .unknownField ds.path name field) ?_ ?_
        · rw [← h.path]
          exact if_neg (mt (h.contains_iff name).mp hname)
        · exact if_neg (mt Entries.isSome_get?_iff.mp hname)
  | discard check names => exact .accepted rfl rfl (keeps_editAll h names _)
  | reject check names => exact .accepted rfl rfl (keeps_editAll h names _)
  | convert conversion names => exact .accepted rfl rfl (keeps_editAll h names _)
  | combine policy names => exact .accepted rfl rfl (keeps_editAll h names _)

theorem AnswersAlike.answer_eq {call : AttributeCall} (h : AnswersAlike l ds call) :
    (l.answer call).1 = (call.declareIn ds).map fun _ => () := by
  cases h with
  | accepted hl hds =>
      rw [hl, hds]
      rfl
  | refused hl hds =>
      rw [hl, hds]
      rfl

theorem keeps_after (h : l.Keeps ds) (calls : AttributeHistory) :
    (l.after calls).Keeps (ds.after calls) := by
  induction calls generalizing l ds with
  | nil => exact h
  | cons call rest ih =>
      rw [after, AttributeDeclarations.after, List.foldl_cons, List.foldl_cons]
      apply ih
      cases h.answersAlike call with
      | accepted hl hds hkeeps =>
          rw [hl, hds]
          exact hkeeps
      | refused hl hds =>
          rw [hl, hds]
          exact h

/-!
# Putting together
-/

theorem collect_eq_map {order : List String} (hnodup : order.Nodup)
    {attributes : List (String × AttributeDescription)}
    {fields : List (String × List (String × RejectCheck))} {g : String -> AttributeDeclaration}
    (hattributes : ∀ name ∈ order, Entries.get? name attributes = some (g name).description)
    (hfields : ∀ name ∈ order, Entries.get? name fields = (g name).fieldChecks?) :
    collect order attributes fields = order.map fun name => (g name).describe := by
  induction order generalizing attributes fields with
  | nil => rfl
  | cons name rest ih =>
      rcases List.nodup_cons.mp hnodup with ⟨hname, hrest⟩
      -- What is taken out for this attribute is not looked for by the attributes after it.
      have htail : collect rest (Entries.erase name attributes) (Entries.erase name fields) =
          rest.map fun name => (g name).describe := by
        apply ih hrest
        · intro other hother
          rw [Entries.get?_erase_of_ne (ne_of_mem_of_not_mem hother hname)]
          exact hattributes other (List.mem_cons_of_mem name hother)
        · intro other hother
          rw [Entries.get?_erase_of_ne (ne_of_mem_of_not_mem hother hname)]
          exact hfields other (List.mem_cons_of_mem name hother)
      rw [collect, Entries.extract_eq, Entries.extract_eq, hattributes name List.mem_cons_self,
        hfields name List.mem_cons_self, List.map_cons, ← htail, AttributeDeclaration.fieldChecks?,
        AttributeDeclaration.describe]
      cases (g name).fields <;> rfl

theorem Keeps.build_eq_describe (h : l.Keeps ds) : l.build = ds.describe := by
  rw [build, h.order, AttributeDeclarations.describe_eq_map h.distinct]
  apply collect_eq_map h.distinct
  · intro name hname
    rw [h.attributes, AttributeDeclarations.get?_eq_current hname]
    rfl
  · exact fun name _ => h.fieldChecks?_current name

end AttributeLedger
end MixedDomain
