import MixedDomain.Attribute.Declarations
import MixedDomain.Proofs.Entries
import MixedDomain.Proofs.Reporting

/-!
# Built-in policies of attributes

## Policies that configurations can name

Configurations know only checks and conversions that have a name.  These read no
more of a context than the registrations of its model, so that they decide as in
a fresh context.

## Declarations

Every declaration about attributes keeps the descriptions built-in when the check
or conversion that it adds is built-in.  It also keeps every description under the
name of its attribute, so that descriptions have distinct names.
-/

namespace MixedDomain

def DiscardCheck.IsBuiltIn : DiscardCheck -> Prop
  | .test _ _ _ => False
  | _ => True

/-- Whether the check, and every check that it applies to items or fields, has a name. -/
inductive RejectCheck.IsBuiltIn : RejectCheck -> Prop where
  | expressions : IsBuiltIn .expressions
  | defined : IsBuiltIn .defined
  | undefined : IsBuiltIn .undefined
  | values (listed : List Value) : IsBuiltIn (.values listed)
  | list {element : RejectCheck} : IsBuiltIn element -> IsBuiltIn (.list element)
  | fields {named : List (String × RejectCheck)} :
      (∀ field ∈ named, IsBuiltIn field.2) -> IsBuiltIn (.fields named)

def Conversion.IsBuiltIn : Conversion -> Prop
  | .apply _ => False
  | _ => True

/-- Whether all that is declared for an attribute has a name. -/
structure AttributeDescription.IsBuiltIn (d : AttributeDescription) : Prop where
  discard : ∀ check ∈ d.discard?, check.IsBuiltIn
  rejects : ∀ check ∈ d.rejects, check.IsBuiltIn
  conversion : ∀ conversion ∈ d.conversion?, conversion.IsBuiltIn

/-!
# Decisions in fresh contexts
-/

theorem DiscardCheck.discardsAttribute_fresh {check : DiscardCheck} (h : check.IsBuiltIn)
    (a : Address) (name : String) (v : Value) (c : Context) :
    check.discardsAttribute a name v c.fresh = check.discardsAttribute a name v c := by
  cases check with
  | test expressions undefined holds => exact h.elim
  | _ => rfl

theorem DiscardCheck.discardsParameter_fresh {check : DiscardCheck} (h : check.IsBuiltIn)
    (a : Address) (name : String) (v operation : Value) (c : Context) :
    check.discardsParameter a name v operation c.fresh =
      check.discardsParameter a name v operation c := by
  cases check with
  | test expressions undefined holds => exact h.elim
  | _ => rfl

theorem RejectCheck.rejectsField_eq_any (named : List (String × RejectCheck)) (a : Address)
    (v : Value) (c : Context) :
    rejectsField named a v c =
      named.any fun field => field.2.rejects a field.1 (v.getOrUndefined field.1) c := by
  induction named with
  | nil =>
      simp [rejectsField]
  | cons field rest ih =>
      simp [rejectsField, ih]

theorem RejectCheck.rejects_fresh {check : RejectCheck} (h : check.IsBuiltIn) (a : Address)
    (name : String) (v : Value) (c : Context) :
    check.rejects a name v c.fresh = check.rejects a name v c := by
  induction h generalizing name v with
  | list _ ih =>
      cases v with
      | list items => simp only [rejects, ih]
      | _ => simp [rejects]
  | fields _ ih =>
      simp only [rejects, rejectsField_eq_any]
      rw [Bool.eq_iff_iff]
      simp only [List.any_eq_true]
      constructor
      · rintro ⟨field, hmem, hrejects⟩
        exact ⟨field, hmem, by rw [← ih field hmem]; exact hrejects⟩
      · rintro ⟨field, hmem, hrejects⟩
        exact ⟨field, hmem, by rw [ih field hmem]; exact hrejects⟩
  | _ =>
      simp [rejects]

theorem Conversion.reports_convert {conversion : Conversion} (h : conversion.IsBuiltIn)
    (a : Address) (name : String) (v : Value) :
    TransformM.Reports (conversion.convert a name v) := by
  cases conversion with
  | default =>
      apply TransformM.reports_ite
      · exact TransformM.reports_pure v
      · apply TransformM.reports_get_bind
        · intro c
          rfl
        · intro c
          exact TransformM.reports_pure _
  | fixed value =>
      exact TransformM.reports_pure value
  | apply convert =>
      exact h.elim

namespace AttributeDescription

variable {d : AttributeDescription}

theorem isBuiltIn_ofName (name : String) : (ofName name).IsBuiltIn := by
  constructor <;> simp [ofName]

theorem discardsAttribute_fresh (h : d.IsBuiltIn) (a : Address) (v : Value) (c : Context) :
    d.discardsAttribute a v c.fresh = d.discardsAttribute a v c := by
  unfold discardsAttribute
  split
  · rename_i check hcheck
    exact DiscardCheck.discardsAttribute_fresh (h.discard check hcheck) a d.name v c
  · rfl

theorem discardsParameter_fresh (h : d.IsBuiltIn) (a : Address) (v operation : Value)
    (c : Context) :
    d.discardsParameter a v operation c.fresh = d.discardsParameter a v operation c := by
  unfold discardsParameter
  split
  · rename_i check hcheck
    exact DiscardCheck.discardsParameter_fresh (h.discard check hcheck) a d.name v operation c
  · rfl

theorem addRejections_fresh (h : d.IsBuiltIn) (a : Address) (v : Value) (c : Context)
    (found : Rejections) : d.addRejections a v c.fresh found = d.addRejections a v c found := by
  have hrejecting : d.rejecting a v c.fresh = d.rejecting a v c := by
    apply List.filter_congr
    intro check hcheck
    exact RejectCheck.rejects_fresh (h.rejects check hcheck) a d.name v c
  rw [addRejections, addRejections, hrejecting]

theorem reports_convert (h : d.IsBuiltIn) (a : Address) (v : Value) :
    TransformM.Reports (d.convert a v) := by
  unfold convert
  split
  · rename_i conversion hconversion
    exact Conversion.reports_convert (h.conversion conversion hconversion) a d.name v
  · exact TransformM.reports_pure v

end AttributeDescription

/-!
# Declarations of attributes
-/

/-- Whether all that has been declared about an attribute has a name. -/
structure AttributeDeclaration.IsBuiltIn (d : AttributeDeclaration) : Prop where
  description : d.description.IsBuiltIn
  fields : ∀ field ∈ d.fields, field.2.IsBuiltIn

theorem AttributeDeclaration.isBuiltIn_describe {d : AttributeDeclaration} (h : d.IsBuiltIn) :
    d.describe.IsBuiltIn := by
  unfold describe
  split
  · exact h.description
  · refine ⟨h.description.discard, ?_, h.description.conversion⟩
    intro check hcheck
    rcases List.mem_append.mp hcheck with hold | hnew
    · exact h.description.rejects check hold
    · cases List.mem_singleton.mp hnew
      exact .fields h.fields

theorem AttributeDeclaration.name_describe (d : AttributeDeclaration) :
    d.describe.name = d.description.name := by
  unfold describe
  split <;> rfl

namespace AttributeDeclarations

/-- Whether all that has been declared about attributes has a name, and every description stands
under the name of its attribute. -/
structure IsBuiltIn (ds : AttributeDeclarations) : Prop where
  declared : ∀ entry ∈ ds.declared, entry.2.IsBuiltIn
  distinct : Entries.Distinct ds.declared
  named : ∀ entry ∈ ds.declared, entry.2.description.name = entry.1

variable {ds : AttributeDeclarations}

theorem isBuiltIn_empty (path : String) : (empty path).IsBuiltIn where
  declared := fun _ hmem => nomatch hmem
  distinct := List.nodup_nil
  named := fun _ hmem => nomatch hmem

theorem isBuiltIn_modify (h : ds.IsBuiltIn) (name : String)
    {f : AttributeDeclaration -> AttributeDeclaration}
    (hf : forall d, d.IsBuiltIn -> (f d).IsBuiltIn)
    (hname : forall d, (f d).description.name = d.description.name) :
    (ds.modify name f).IsBuiltIn := by
  have hold : ((Entries.get? name ds.declared).getD (AttributeDeclaration.ofName name)).IsBuiltIn ∧
      ((Entries.get? name ds.declared).getD
        (AttributeDeclaration.ofName name)).description.name = name := by
    cases hget : Entries.get? name ds.declared with
    | none =>
        exact ⟨⟨AttributeDescription.isBuiltIn_ofName name, by simp [AttributeDeclaration.ofName]⟩,
          rfl⟩
    | some d =>
        have hmem := Entries.mem_of_get? hget
        exact ⟨h.declared _ hmem, h.named _ hmem⟩
  constructor
  · intro entry hentry
    rcases Entries.mem_insert hentry with rfl | hmem
    · exact hf _ hold.1
    · exact h.declared entry hmem
  · exact Entries.distinct_insert _ h.distinct
  · intro entry hentry
    rcases Entries.mem_insert hentry with rfl | hmem
    · exact (hname _).trans hold.2
    · exact h.named entry hmem

theorem isBuiltIn_describeAll (h : ds.IsBuiltIn) (names : List String)
    {f : AttributeDescription -> AttributeDescription}
    (hf : forall d, d.IsBuiltIn -> (f d).IsBuiltIn) (hname : forall d, (f d).name = d.name) :
    (ds.describeAll names f).IsBuiltIn := by
  induction names generalizing ds with
  | nil =>
      exact h
  | cons name rest ih =>
      apply ih
      exact isBuiltIn_modify h name
        (fun d hd => ⟨hf d.description hd.description, hd.fields⟩) fun d => hname d.description

theorem isBuiltIn_discard (h : ds.IsBuiltIn) {check : DiscardCheck} (hcheck : check.IsBuiltIn)
    (names : List String) : (ds.discard check names).IsBuiltIn := by
  refine isBuiltIn_describeAll h names ?_ fun _ => rfl
  intro d hd
  refine ⟨?_, hd.rejects, hd.conversion⟩
  rintro _ ⟨⟩
  exact hcheck

theorem isBuiltIn_reject (h : ds.IsBuiltIn) {check : RejectCheck} (hcheck : check.IsBuiltIn)
    (names : List String) : (ds.reject check names).IsBuiltIn := by
  refine isBuiltIn_describeAll h names ?_ fun _ => rfl
  intro d hd
  refine ⟨hd.discard, ?_, hd.conversion⟩
  intro other hother
  rcases List.mem_append.mp hother with hold | hnew
  · exact hd.rejects other hold
  · cases List.mem_singleton.mp hnew
    exact hcheck

theorem isBuiltIn_convert (h : ds.IsBuiltIn) {conversion : Conversion}
    (hconversion : conversion.IsBuiltIn) (names : List String) :
    (ds.convert conversion names).IsBuiltIn := by
  refine isBuiltIn_describeAll h names ?_ fun _ => rfl
  intro d hd
  refine ⟨hd.discard, hd.rejects, ?_⟩
  rintro _ ⟨⟩
  exact hconversion

theorem isBuiltIn_rename (h : ds.IsBuiltIn) {name newName : String} {ds' : AttributeDeclarations}
    (hrename : ds.rename name newName = .ok ds') : ds'.IsBuiltIn := by
  unfold rename at hrename
  split at hrename
  · cases hrename
  · cases hrename
    exact isBuiltIn_describeAll h [name]
      (fun d hd => ⟨hd.discard, hd.rejects, hd.conversion⟩) fun _ => rfl

theorem isBuiltIn_describe (h : ds.IsBuiltIn) : ∀ d ∈ ds.describe, d.IsBuiltIn := by
  intro d hd
  rcases List.mem_map.mp hd with ⟨entry, hentry, rfl⟩
  exact AttributeDeclaration.isBuiltIn_describe (h.declared entry hentry)

theorem nodup_describe (hdistinct : Entries.Distinct ds.declared)
    (hnamed : ∀ entry ∈ ds.declared, entry.2.description.name = entry.1) :
    (ds.describe.map AttributeDescription.name).Nodup := by
  have hkeys : ds.describe.map AttributeDescription.name = Entries.keys ds.declared := by
    rw [describe, List.map_map, Entries.keys]
    apply List.map_congr_left
    intro entry hentry
    exact (AttributeDeclaration.name_describe entry.2).trans (hnamed entry hentry)
  rw [hkeys]
  exact hdistinct

end AttributeDeclarations
end MixedDomain
