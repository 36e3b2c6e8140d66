import Mathlib.Data.List.Pairwise
import MixedDomain.Proofs.Attribute.Adding
import MixedDomain.Proofs.Attribute.Rejecting
import MixedDomain.Proofs.Transformer.Address

/-!
# Setting one attribute

## Three operations

An attribute is set by adding its resource with it, by writing it, or by making it
undefined.  The rules for these operations decide by different parameters, but all
of them discard, reject, convert and rename the same value by the same description.

## New names

Nothing is lost by renaming when the new names are apart from each other and from
all names that there are already.
-/

namespace MixedDomain

open TransformM

namespace Operation

def adding (a : Address) (n : String) (v : Value) : Value :=
  (create add a).put n v

def writing (a : Address) (n : String) (v : Value) : Value :=
  ((create writeAttribute a).put attributeKey (.string n)).put valueKey v

def undefining (a : Address) (n : String) : Value :=
  (create undefineAttribute a).put attributeKey (.string n)

end Operation

/-- What is said of rejected attributes, if there are any. -/
def Rejections.details? (r : Rejections) : Option String :=
  if r.isEmpty then none else some r.messages

theorem Rejections.isSome_details? {r : Rejections} : r.details?.isSome ↔ r ≠ [] := by
  cases r <;> simp [details?]

namespace AttributeDescription

variable {d : AttributeDescription} {ds : List AttributeDescription} {a : Address} {c c' : Context}
  {v operation : Value} {entries before : List (String × Value)} {others : List String}

/-!
# One description among others
-/

theorem find?_of_mem (hnames : (ds.map name).Nodup) (hd : d ∈ ds) : find? d.name ds = some d :=
  List.find?_key_of_mem hnames hd

theorem nameOnTarget_of_mem (hnames : (ds.map name).Nodup) (hd : d ∈ ds) :
    nameOnTarget ds d.name = d.newName?.getD d.name := by
  rw [nameOnTarget, find?_of_mem hnames hd]
  rfl

/-- Whether new names are distinct, and none of them is the name of an attribute or reserved. -/
structure RenamesApart (reserved : List String) (ds : List AttributeDescription) : Prop where
  distinct : (ds.filterMap newName?).Nodup
  fresh : ∀ newName ∈ ds.filterMap newName?, newName ∉ ds.map name
  spares : ∀ newName ∈ ds.filterMap newName?, newName ∉ reserved

namespace RenamesApart

variable {reserved : List String}

theorem unchained (h : RenamesApart reserved ds) : Unchained ds := by
  apply List.Pairwise.imp_of_mem _ (List.pairwise_of_forall fun _ _ => trivial)
  intro d later hd hlater _ _ hnew
  exact h.fresh later.name (List.mem_filterMap.mpr ⟨d, hd, hnew⟩) (List.mem_map_of_mem hlater)

/-- A name is renamed by its description, or kept. -/
theorem nameOnTarget_cases (ds : List AttributeDescription) (key : String) :
    (∃ d ∈ ds, d.name = key ∧ d.newName? = some (nameOnTarget ds key)) ∨
      nameOnTarget ds key = key := by
  unfold nameOnTarget
  cases hfind : find? key ds with
  | none => exact Or.inr rfl
  | some d =>
      cases hnew : d.newName? with
      | none => exact Or.inr (by simp [hnew])
      | some newName =>
          have hname : d.name = key := by
            simpa using List.find?_some hfind
          exact Or.inl ⟨d, List.mem_of_find?_eq_some hfind, hname, by simp [hnew]⟩

/-- Renaming keeps the names of attributes and the reserved names apart. -/
theorem injOn (h : RenamesApart reserved ds) :
    Set.InjOn (nameOnTarget ds) {key | key ∈ ds.map name ∨ key ∈ reserved} := by
  have hkept : forall {d : AttributeDescription} {key : String}, d ∈ ds ->
      (key ∈ ds.map name ∨ key ∈ reserved) -> d.newName? ≠ some key := by
    intro d key hd hkey hnew
    have hmem : key ∈ ds.filterMap newName? := List.mem_filterMap.mpr ⟨d, hd, hnew⟩
    exact hkey.elim (h.fresh key hmem) (h.spares key hmem)
  have hdistinct : forall {d d' : AttributeDescription} {newName : String}, d ∈ ds -> d' ∈ ds ->
      d.newName? = some newName -> d'.newName? = some newName -> d = d' := by
    intro d d' newName hd hd' hnew hnew'
    have : Std.Symm fun d d' : AttributeDescription =>
        ∀ n, d.newName? = some n -> ∀ n', d'.newName? = some n' -> n ≠ n' :=
      ⟨fun _ _ hne n hn n' hn' => (hne n' hn' n hn).symm⟩
    by_contra hne
    exact (List.pairwise_filterMap.mp h.distinct).forall hd hd' hne _ hnew _ hnew' rfl
  intro key hkey other hother heq
  rcases nameOnTarget_cases ds key with ⟨d, hd, rfl, hnew⟩ | hsame
  · rcases nameOnTarget_cases ds other with ⟨d', hd', rfl, hnew'⟩ | hsame'
    · rw [hdistinct hd hd' hnew (heq ▸ hnew')]
    · rw [heq, hsame'] at hnew
      exact absurd hnew (hkept hd hother)
  · rcases nameOnTarget_cases ds other with ⟨d', hd', rfl, hnew'⟩ | hsame'
    · rw [← heq, hsame] at hnew'
      exact absurd hnew' (hkept hd' hkey)
    · rw [← hsame, heq, hsame']

end RenamesApart

/-!
# All parameters
-/

theorem mem_remaining_iff {discarded : List String} :
    d ∈ remaining ds discarded ↔ d ∈ ds ∧ d.name ∉ discarded := by
  simp [remaining]

theorem mem_discardedParameters_iff (hnames : (ds.map name).Nodup) (hd : d ∈ ds) :
    d.name ∈ discardedParameters ds a operation c ↔
      d.discardsParameter a (operation.getOrUndefined d.name) operation c :=
  name_mem_filter_iff hnames hd _

theorem get?_eraseAll_of_mem {key : String} {names : List String} (hv : v.IsModel)
    (hkey : key ∈ names) : (eraseAll names v).get? key = none := by
  induction names generalizing v with
  | nil =>
      cases hkey
  | cons name rest ih =>
      by_cases hrest : key ∈ rest
      · exact ih (Value.keptByEdits_isModel.erase name hv) hrest
      · rcases List.mem_cons.mp hkey with rfl | hmem
        · exact (get?_eraseAll hrest (v.erase key)).trans (hv.get?_erase_self key)
        · exact absurd hmem hrest

def parameterRejections (ds : List AttributeDescription) (a : Address) (operation : Value)
    (c : Context) : Rejections :=
  let discarded := discardedParameters ds a operation c
  rejections (remaining ds discarded) a (eraseAll discarded operation) c

theorem parameterRejections_fresh (hb : ∀ d ∈ ds, d.IsBuiltIn) (a : Address) (operation : Value)
    (c : Context) :
    parameterRejections ds a operation c.fresh = parameterRejections ds a operation c := by
  simp only [parameterRejections, discardedParameters_fresh hb,
    rejections_fresh (isBuiltIn_of_mem_remaining hb _)]

/-- An attribute is among the rejected ones when it is not discarded, and one of its checks rejects
the value that came. -/
theorem concerns_parameterRejections (hnames : (ds.map name).Nodup) (hd : d ∈ ds) :
    (parameterRejections ds a operation c).Concerns d.name ↔
      ¬ d.discardsParameter a (operation.getOrUndefined d.name) operation c ∧
        d.rejecting a (operation.getOrUndefined d.name) c ≠ [] := by
  rw [← mem_discardedParameters_iff hnames hd, parameterRejections, concerns_rejections]
  have hvalue : d.name ∉ discardedParameters ds a operation c ->
      (eraseAll (discardedParameters ds a operation c) operation).getOrUndefined d.name =
        operation.getOrUndefined d.name := by
    intro hkept
    rw [Value.getOrUndefined, get?_eraseAll hkept, ← Value.getOrUndefined]
  constructor
  · rintro ⟨d', hd', heq, hrejecting⟩
    rcases mem_remaining_iff.mp hd' with ⟨hmem, hkept⟩
    rw [eq_of_name_eq hnames hd hmem heq] at hkept hrejecting
    rw [hvalue hkept] at hrejecting
    exact ⟨hkept, hrejecting⟩
  · rintro ⟨hkept, hrejecting⟩
    rw [← hvalue hkept] at hrejecting
    exact ⟨d, mem_remaining_iff.mpr ⟨hd, hkept⟩, rfl, hrejecting⟩

theorem isModel_of_isDistinctObject (h : IsDistinctObject v) : v.IsModel := by
  rcases h with ⟨entries, rfl, hdistinct⟩
  exact .object hdistinct

theorem run_convertedParameters (hb : ∀ d ∈ ds, d.IsBuiltIn) (a : Address) (c : Context)
    (hoperation : IsDistinctObject operation) :
    ∃ before, Entries.Distinct before ∧
      run (convertedParameters ds a operation) c = (.ok (.object before), c) := by
  have hreduced := eraseAll_keeps Value.keptByEdits_isModel (isModel_of_isDistinctObject hoperation)
    (discardedParameters ds a operation c)
  rcases run_convertAll_of_takesEdits Value.takesEdits_isModel
    (isBuiltIn_of_mem_remaining hb _) a c hreduced with ⟨converted, hconverted, _⟩
  have hrun : run (convertedParameters ds a operation) c = (.ok converted, c) := hconverted
  rcases isDistinctObject_of_convertedParameters hoperation hrun with ⟨before, rfl, hbefore⟩
  exact ⟨before, hbefore, hrun⟩

/-- The parameters are renamed as they are left by the phases before; then the rejections decide. -/
theorem run_transformParameters_eq (hb : ∀ d ∈ ds, d.IsBuiltIn) (a : Address) (c : Context)
    (hoperation : IsDistinctObject operation) :
    exists before, Entries.Distinct before ∧
      run (convertedParameters ds a operation) c = (.ok (.object before), c) ∧
      run (transformParameters ds a operation) c =
        run (do
          if (parameterRejections ds a operation c).isEmpty then
            return Outcome.send (.object (renameEntries ds before))
          else
            let name ← ofValue (Operation.name operation)
            let now ← get
            return Outcome.rejected (.object (renameEntries ds before))
              (rejectedAttributesMessage now.target a name
                (parameterRejections ds a operation c).messages)) c := by
  rcases run_convertedParameters hb a c hoperation with ⟨before, hbefore, hrun⟩
  have hconverted : run (convertAll a (remaining ds (discardedParameters ds a operation c))
      (eraseAll (discardedParameters ds a operation c) operation)) c = (.ok (.object before), c) :=
    hrun
  have hrenamed : run (ofValue (renameAll ds (.object before))) c =
      (.ok (.object (renameEntries ds before)), c) := by
    rw [renameAll_object]
    rfl
  refine ⟨before, hbefore, hrun, ?_⟩
  rw [transformParameters, run_get_bind, run_bind_of_ok hconverted, run_bind_of_ok hrenamed]
  rfl

theorem run_transformParameters (hb : ∀ d ∈ ds, d.IsBuiltIn) (a : Address) (c : Context)
    (hoperation : IsDistinctObject operation) {operationName : String}
    (hname : Operation.name operation = .ok operationName) :
    exists before, Entries.Distinct before ∧
      run (convertedParameters ds a operation) c = (.ok (.object before), c) ∧
      run (transformParameters ds a operation) c =
        (.ok (finish (.object (renameEntries ds before))
          ((parameterRejections ds a operation c).details?.map
            (rejectedAttributesMessage c.target a operationName))), c) := by
  rcases run_transformParameters_eq hb a c hoperation with ⟨before, hbefore, hconverted, hrun⟩
  refine ⟨before, hbefore, hconverted, ?_⟩
  rw [hrun, hname, Rejections.details?]
  split
  · rfl
  · rfl

theorem get?_of_convertedParameters (hb : ∀ d ∈ ds, d.IsBuiltIn) (hnames : (ds.map name).Nodup)
    (hd : d ∈ ds) (hoperation : operation.IsModel)
    (hrun : run (convertedParameters ds a operation) c = (.ok v, c')) :
    v.get? d.name =
      if d.discardsParameter a (operation.getOrUndefined d.name) operation c then none
      else d.convertedEntry? a (operation.get? d.name) c := by
  rw [convertedParameters, run_get_bind] at hrun
  split
  · rename_i hdiscards
    have hmem := (mem_discardedParameters_iff hnames hd).mpr hdiscards
    have hothers : ∀ other ∈ remaining ds (discardedParameters ds a operation c),
        d.name ≠ other.name := fun other hother heq =>
      (mem_remaining_iff.mp hother).2 (heq ▸ hmem)
    rw [get?_of_convertAll hothers hrun, get?_eraseAll_of_mem hoperation hmem]
  · rename_i hkept
    have hmem := fun hname => hkept ((mem_discardedParameters_iff hnames hd).mp hname)
    have hremaining : d ∈ remaining ds (discardedParameters ds a operation c) :=
      mem_remaining_iff.mpr ⟨hd, hmem⟩
    have hdistinct : ((remaining ds (discardedParameters ds a operation c)).map name).Nodup :=
      hnames.sublist (List.filter_sublist.map name)
    rw [get?_of_convertAll_of_mem (isBuiltIn_of_mem_remaining hb _) hdistinct hremaining hrun,
      get?_eraseAll hmem]

theorem get?_of_convertedParameters_of_not_mem {key : String} (hkey : key ∉ ds.map name)
    (hrun : run (convertedParameters ds a operation) c = (.ok v, c')) :
    v.get? key = operation.get? key := by
  rw [convertedParameters, run_get_bind] at hrun
  have hothers : ∀ other ∈ remaining ds (discardedParameters ds a operation c),
      key ≠ other.name := fun other hother heq =>
    hkey (heq ▸ List.mem_map_of_mem (mem_remaining_iff.mp hother).1)
  have hkept : key ∉ discardedParameters ds a operation c := by
    intro hmem
    rcases List.mem_map.mp hmem with ⟨d, hd, rfl⟩
    exact hkey (List.mem_map_of_mem (List.mem_filter.mp hd).1)
  rw [get?_of_convertAll hothers hrun, get?_eraseAll hkept]

/-- Conversions add no names but those of attributes. -/
theorem mem_keys_of_convertedParameters
    (hrun : run (convertedParameters ds a (.object entries)) c = (.ok (.object before), c')) :
    ∀ key ∈ Entries.keys before, key ∈ ds.map name ∨ key ∈ Entries.keys entries := by
  intro key hkey
  by_contra hother
  rw [not_or] at hother
  have hsame := get?_of_convertedParameters_of_not_mem hother.1 hrun
  have hnone : Entries.get? key before = none :=
    hsame.trans ((Entries.get?_eq_none_iff key entries).mpr hother.2)
  exact (Entries.get?_eq_none_iff key before).mp hnone hkey

theorem get?_renameEntries {reserved : List String} (hnames : (ds.map name).Nodup)
    (hrenames : RenamesApart reserved ds) (hbefore : Entries.Distinct before)
    (hkeys : ∀ key ∈ Entries.keys before, key ∈ ds.map name ∨ key ∈ reserved) (hd : d ∈ ds) :
    Entries.get? (d.newName?.getD d.name) (renameEntries ds before) =
      Entries.get? d.name before := by
  have hmoved := renamesBy_nameOnTarget hbefore (hrenames.injOn.mono hkeys)
    fun key _ => nameInOrder_eq_nameOnTarget hnames hrenames.unchained key
  rw [← nameOnTarget_of_mem hnames hd]
  exact hmoved.get?_of_injOn hrenames.injOn hkeys (Or.inl (List.mem_map_of_mem hd))

/-!
# Adding a resource with one attribute
-/

theorem isDistinctObject_adding (a : Address) (n : String) (v : Value) :
    IsDistinctObject (Operation.adding a n v) := by
  refine ⟨_, rfl, Entries.distinct_insert v ?_⟩
  show [Operation.nameKey, Operation.addressKey].Nodup
  decide

theorem get?_adding_self (a : Address) (n : String) (v : Value) :
    (Operation.adding a n v).get? n = some v :=
  Entries.get?_insert_self n v _

/-- The attribute has on the target its converted value under its new name, unless it is
discarded. -/
theorem run_transformParameters_adding (hb : ∀ d ∈ ds, d.IsBuiltIn) (hnames : (ds.map name).Nodup)
    (hrenames : RenamesApart [Operation.nameKey, Operation.addressKey] ds) (hd : d ∈ ds)
    (hadd : (Operation.adding a d.name v).get? Operation.nameKey = some (.string Operation.add))
    (hparameter : ∀ registration ∈ c.registrationFromRoot? a,
      (registration.operation? Operation.add).bind (OperationDefinition.parameter? d.name) = none) :
    exists sent, run (transformParameters ds a (Operation.adding a d.name v)) c =
        (.ok (finish sent ((parameterRejections ds a (Operation.adding a d.name v) c).details?.map
          (rejectedAttributesMessage c.target a Operation.add))), c) ∧
      sent.get? (nameOnTarget ds d.name) =
        if d.discardsAttribute a v c then none else some (d.converted a v c) := by
  have hname : Operation.name (Operation.adding a d.name v) = .ok Operation.add := by
    rw [Operation.name, Value.require, hadd]
    rfl
  have htext : ((Operation.adding a d.name v).get? Operation.nameKey).bind Value.text? =
      some Operation.add := by
    rw [hadd]
    rfl
  have hobject := isDistinctObject_adding a d.name v
  rcases run_transformParameters hb a c hobject hname with ⟨before, hbefore, hconverted, hrun⟩
  have hkeys : ∀ key ∈ Entries.keys before,
      key ∈ ds.map name ∨ key ∈ [Operation.nameKey, Operation.addressKey] := by
    intro key hkey
    rcases mem_keys_of_convertedParameters hconverted key hkey with hmem | hthere
    · exact Or.inl hmem
    · rcases (Entries.mem_keys_insert v).mp hthere with rfl | hheader
      · exact Or.inl (List.mem_map_of_mem hd)
      · exact Or.inr hheader
  have hown : Entries.get? d.name before =
      if d.discardsAttribute a v c then none else some (d.converted a v c) := by
    have hget := get?_of_convertedParameters hb hnames hd (isModel_of_isDistinctObject hobject)
      hconverted
    rw [discardsParameter_of_add htext hparameter, Value.getOrUndefined, get?_adding_self,
      convertedEntry?_some] at hget
    exact hget
  refine ⟨_, hrun, Eq.trans ?_ hown⟩
  rw [nameOnTarget_of_mem hnames hd]
  exact get?_renameEntries hnames hrenames hbefore hkeys hd

/-!
# Operations on one attribute
-/

theorem discardsParameter_of_write
    (hname : (operation.get? Operation.nameKey).bind Value.text? = some Operation.writeAttribute)
    (v : Value) : d.discardsParameter a v operation c = d.discardsAttribute a v c := by
  apply discardsParameter_of_default
  simp only [DiscardCheck.operationDefault?, hname, Option.getD_some, if_pos]

/-- No default counts for an undefined value. -/
theorem discardsParameter_undefined (d : AttributeDescription) (a : Address) (operation : Value)
    (c : Context) :
    d.discardsParameter a .undefined operation c = d.discardsAttribute a .undefined c := by
  unfold discardsParameter discardsAttribute
  cases d.discard? with
  | none => rfl
  | some check =>
      cases check with
      | default => rfl
      | _ => rfl

def namedRejections (d : AttributeDescription) (a : Address) (v : Value) (c : Context) :
    Rejections :=
  rejections [d] a (.object [(d.name, v)]) c

theorem namedRejections_eq_nil_iff : d.namedRejections a v c = [] ↔ d.rejecting a v c = [] := by
  have hvalue : (Value.object [(d.name, v)]).getOrUndefined d.name = v := by
    simp [Value.getOrUndefined, Value.get?, Entries.get?]
  rw [namedRejections, rejections_eq_nil_iff, List.forall_mem_singleton, hvalue]

theorem run_transformNamed (hb : d.IsBuiltIn) (operation : String -> Value)
    {operationName : String}
    (hname : forall n, ((operation n).get? Operation.nameKey).bind Value.text? = some operationName)
    (hset : forall n n', (operation n).set Operation.attributeKey (.string n') = .ok (operation n'))
    (hdiscards : d.discardsParameter a v (operation d.name) c = d.discardsAttribute a v c) :
    run (d.transformNamed a (operation d.name) v) c =
      (.ok (if d.discardsAttribute a v c then none else
        some ⟨operation (d.newName?.getD d.name), d.converted a v c,
          (d.namedRejections a v c).details?.map
            (rejectedAttributesMessage c.target a operationName)⟩), c) := by
  have hrejection : (if (d.namedRejections a v c).isEmpty then none
      else some (rejectedAttributesMessage c.target a operationName
        (d.namedRejections a v c).messages)) =
      (d.namedRejections a v c).details?.map
        (rejectedAttributesMessage c.target a operationName) := by
    unfold Rejections.details?
    split <;> rfl
  rw [transformNamed, run_get_bind, hdiscards, hname, Option.getD_some, ← hrejection]
  split
  · rfl
  · rw [run_bind_of_ok (run_convert hb a v c)]
    cases d.newName? with
    | none => rfl
    | some newName =>
        simp only [hset]
        rfl

def namedOutcome (d : AttributeDescription) (a : Address) (operationName : String) (v : Value)
    (c : Context) (sent : Value) : Outcome :=
  if d.discardsAttribute a v c then Outcome.discarded
  else finish sent ((d.namedRejections a v c).details?.map
    (rejectedAttributesMessage c.target a operationName))

theorem run_transformWrite (hb : ∀ d ∈ ds, d.IsBuiltIn) (hnames : (ds.map name).Nodup) (hd : d ∈ ds)
    (a : Address) (v : Value) (c : Context) :
    run (transformWrite ds a (Operation.writing a d.name v)) c =
      (.ok (d.namedOutcome a Operation.writeAttribute v c
        (Operation.writing a (nameOnTarget ds d.name) (d.converted a v c))), c) := by
  have hnamed := run_transformNamed (a := a) (hb d hd) (fun n => Operation.writing a n v)
    (fun _ => rfl) (fun _ _ => rfl) (discardsParameter_of_write (c := c) rfl v)
  have hvalue : (Operation.writing a d.name v).getOrUndefined Operation.valueKey = v := by
    rfl
  have hname : run (ofValue (attributeName (Operation.writing a d.name v))) c = (.ok d.name, c) := by
    rfl
  rw [transformWrite, run_bind_of_ok hname, find?_of_mem hnames hd, nameOnTarget_of_mem hnames hd,
    namedOutcome, hvalue]
  dsimp only
  rw [run_bind_of_ok hnamed]
  cases d.discardsAttribute a v c with
  | true => rfl
  | false => rfl

theorem run_transformUndefine (hb : ∀ d ∈ ds, d.IsBuiltIn) (hnames : (ds.map name).Nodup)
    (hd : d ∈ ds) (a : Address) (c : Context) :
    run (transformUndefine ds a (Operation.undefining a d.name)) c =
      (.ok (d.namedOutcome a Operation.undefineAttribute .undefined c
        (if (d.converted a .undefined c).isDefined then
          Operation.writing a (nameOnTarget ds d.name) (d.converted a .undefined c)
        else Operation.undefining a (nameOnTarget ds d.name))), c) := by
  have hnamed := run_transformNamed (hb d hd) (Operation.undefining a)
    (fun _ => rfl) (fun _ _ => rfl)
    (discardsParameter_undefined d a (Operation.undefining a d.name) c)
  have hname : run (ofValue (attributeName (Operation.undefining a d.name))) c =
      (.ok d.name, c) := by
    rfl
  rw [transformUndefine, run_bind_of_ok hname, find?_of_mem hnames hd,
    nameOnTarget_of_mem hnames hd, namedOutcome]
  dsimp only
  rw [run_bind_of_ok hnamed]
  cases d.discardsAttribute a .undefined c with
  | true => rfl
  | false =>
      simp only [Bool.false_eq_true, if_false]
      split
      · rfl
      · rfl

/-!
# Outcomes of operations on one attribute
-/

theorem isFixed_namedOutcome (d : AttributeDescription) (a : Address) (operationName : String)
    (v : Value) (c : Context) (sent : Value) :
    (d.namedOutcome a operationName v c sent).IsFixed := by
  unfold namedOutcome
  split
  · exact Outcome.isFixed_discarded
  · exact isFixed_finish _ _

theorem description?_finish (operation : Value) (rejection? : Option String) :
    (finish operation rejection?).description? = rejection? := by
  cases rejection? <;> rfl

theorem operation?_namedOutcome (d : AttributeDescription) (a : Address) (operationName : String)
    (v : Value) (c : Context) (sent : Value) :
    (d.namedOutcome a operationName v c sent).operation? =
      if d.discardsAttribute a v c then none else some sent := by
  unfold namedOutcome
  split
  · rfl
  · exact operation?_finish _ _

def namedDetails? (d : AttributeDescription) (a : Address) (v : Value) (c : Context) :
    Option String :=
  if d.discardsAttribute a v c then none else (d.namedRejections a v c).details?

theorem description?_namedOutcome (d : AttributeDescription) (a : Address) (operationName : String)
    (v : Value) (c : Context) (sent : Value) :
    (d.namedOutcome a operationName v c sent).description? =
      (d.namedDetails? a v c).map (rejectedAttributesMessage c.target a operationName) := by
  unfold namedOutcome namedDetails?
  split
  · rfl
  · exact description?_finish _ _

end AttributeDescription
end MixedDomain
