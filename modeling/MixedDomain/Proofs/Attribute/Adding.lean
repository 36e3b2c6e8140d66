import MixedDomain.Proofs.Attribute.Converting
import MixedDomain.Proofs.Entries.Sorted
import MixedDomain.Proofs.Transformer.BuiltIn

/-!
# Adding a resource

## An operation that carries a model

The operation that adds a resource has the entries of its model as parameters,
after a header with its name and its address.  Everything that is found in the
model is found in the operation, and changes of either keep this so as long as no
name of the header is changed.

## The two ways

The phases for operations and those for models read and change the same values.
They end with an operation that carries the model, and with the same rejections.
-/

namespace MixedDomain

open TransformM

/-- Whether an operation is a header followed by the entries of a model. -/
inductive Carries (header : List (String × Value)) : Value -> Value -> Prop where
  | undefined : Carries header (.object header) .undefined
  | object {entries : List (String × Value)} :
      (∀ key ∈ Entries.keys entries, key ∉ Entries.keys header) ->
      Carries header (.object (header ++ entries)) (.object entries)

namespace Carries

variable {header : List (String × Value)} {operation model : Value} {key : String}

theorem get?_eq (h : Carries header operation model) (hkey : key ∉ Entries.keys header) :
    operation.get? key = model.get? key := by
  cases h with
  | undefined => exact (Entries.get?_eq_none_iff key header).mpr hkey
  | object _ => exact Entries.get?_append_of_not_mem hkey _

theorem getOrUndefined_eq (h : Carries header operation model)
    (hkey : key ∉ Entries.keys header) :
    operation.getOrUndefined key = model.getOrUndefined key := by
  rw [Value.getOrUndefined, Value.getOrUndefined, h.get?_eq hkey]

theorem entry?_eq (h : Carries header operation model) (hkey : key ∉ Entries.keys header) :
    operation.entry? key = model.entry? key := by
  cases h with
  | undefined => exact (Entries.get?_eq_none_iff key header).mpr hkey
  | object _ => exact Entries.get?_append_of_not_mem hkey _

theorem erase (h : Carries header operation model) (hkey : key ∉ Entries.keys header) :
    Carries header (operation.erase key) (model.erase key) := by
  cases h with
  | undefined =>
      have hsame := Entries.erase_append hkey []
      simp only [List.append_nil, Entries.erase] at hsame
      show Carries header (.object (Entries.erase key header)) .undefined
      rw [hsame]
      exact .undefined
  | @object entries hfree =>
      rw [Value.erase, Value.erase, Entries.erase_append hkey]
      refine .object fun k hk => hfree k ?_
      rw [Entries.keys_erase] at hk
      exact List.mem_of_mem_erase hk

theorem set (h : Carries header operation model) (hkey : key ∉ Entries.keys header)
    (value : Value) : exists operation' model', operation.set key value = .ok operation' ∧
      model.set key value = .ok model' ∧ Carries header operation' model' := by
  cases h with
  | undefined =>
      have hsame := Entries.insert_append hkey value []
      rw [List.append_nil, Entries.insert] at hsame
      refine ⟨_, _, rfl, rfl, ?_⟩
      rw [hsame]
      refine .object fun k hk => ?_
      cases List.mem_singleton.mp hk
      exact hkey
  | @object entries hfree =>
      refine ⟨_, _, rfl, rfl, ?_⟩
      rw [Entries.insert_append hkey]
      refine .object fun k hk => ?_
      rcases (Entries.mem_keys_insert value).mp hk with rfl | hold
      · exact hkey
      · exact hfree k hold

end Carries

/-- What is left in the context when the model of a resource has been transformed. -/
def Context.afterRejecting (a : Address) (details? : Option String) (c : Context) : Context :=
  match details? with
  | none => c
  | some details => c.reporting [rejectedResourceMessage c.target a details]

/-!
# Discarding
-/

namespace AttributeDescription

variable {d : AttributeDescription} {ds : List AttributeDescription} {a : Address} {c : Context}
  {header : List (String × Value)} {operation model : Value}

theorem discardsParameter_of_default
    (hdefault : DiscardCheck.operationDefault? a d.name operation c =
      DiscardCheck.attributeDefault? a d.name c) (v : Value) :
    d.discardsParameter a v operation c = d.discardsAttribute a v c := by
  unfold discardsParameter discardsAttribute
  cases d.discard? with
  | none => rfl
  | some check =>
      cases check with
      | default =>
          simp only [DiscardCheck.discardsParameter, DiscardCheck.discardsAttribute,
            DiscardCheck.testValue, hdefault]
      | _ => rfl

theorem discardsParameter_of_add
    (hname : (operation.get? Operation.nameKey).bind Value.text? = some Operation.add)
    (hparameter : ∀ registration ∈ c.registrationFromRoot? a,
      (registration.operation? Operation.add).bind (OperationDefinition.parameter? d.name) = none)
    (v : Value) : d.discardsParameter a v operation c = d.discardsAttribute a v c := by
  apply discardsParameter_of_default
  have hne : Operation.add ≠ Operation.writeAttribute := by
    decide
  simp only [DiscardCheck.operationDefault?, hname, Option.getD_some, if_neg hne,
    DiscardCheck.parameterDefault?]
  cases hregistration : c.registrationFromRoot? a with
  | none => simp [DiscardCheck.attributeDefault?, hregistration]
  | some registration => simp [hparameter registration hregistration]

theorem eq_of_name_eq {d' : AttributeDescription} (hnames : (ds.map name).Nodup) (hd : d ∈ ds)
    (hd' : d' ∈ ds) (heq : d'.name = d.name) : d' = d :=
  List.inj_on_of_nodup_map hnames hd' hd heq

theorem name_mem_filter_iff (hnames : (ds.map name).Nodup) (hd : d ∈ ds)
    (p : AttributeDescription -> Bool) : d.name ∈ (ds.filter p).map name ↔ p d := by
  rw [List.mem_map]
  constructor
  · rintro ⟨d', hd', heq⟩
    rcases List.mem_filter.mp hd' with ⟨hmem, hp⟩
    rwa [eq_of_name_eq hnames hd hmem heq] at hp
  · intro hp
    exact ⟨d, List.mem_filter.mpr ⟨hd, hp⟩, rfl⟩

def discardedAttributes (ds : List AttributeDescription) (a : Address) (model : Value)
    (c : Context) : List String :=
  (ds.filter fun d => d.discardsAttribute a (model.getOrUndefined d.name) c).map name

theorem discardFromModel_eq (hnames : (ds.map name).Nodup) (model : Value) (before : List String) :
    discardFromModel a c ds (model, before) =
      (eraseAll (discardedAttributes ds a model c) model,
        before ++ discardedAttributes ds a model c) := by
  induction ds generalizing model before with
  | nil =>
      simp [discardFromModel, discardedAttributes, eraseAll]
  | cons d rest ih =>
      rw [List.map_cons, List.nodup_cons] at hnames
      have hrest : discardedAttributes rest a (model.erase d.name) c =
          discardedAttributes rest a model c := by
        unfold discardedAttributes
        congr 1
        apply List.filter_congr
        intro other hother
        have hne : other.name ≠ d.name := fun heq =>
          hnames.1 (heq ▸ List.mem_map_of_mem hother)
        rw [Value.getOrUndefined, Value.get?_erase_of_ne hne, ← Value.getOrUndefined]
      cases hdiscards : d.discardsAttribute a (model.getOrUndefined d.name) c with
      | false =>
          have hsame : discardedAttributes (d :: rest) a model c =
              discardedAttributes rest a model c := by
            simp [discardedAttributes, hdiscards]
          simp [discardFromModel, hdiscards, ih hnames.2, hsame]
      | true =>
          have hmore : discardedAttributes (d :: rest) a model c =
              d.name :: discardedAttributes rest a model c := by
            simp [discardedAttributes, hdiscards]
          simp [discardFromModel, hdiscards, ih hnames.2, hrest, hmore, eraseAll]

theorem discardedParameters_of_carries (h : Carries header operation model)
    (hspares : ∀ d ∈ ds, d.Spares (Entries.keys header))
    (hdiscards : ∀ d ∈ ds, forall v,
      d.discardsParameter a v operation c = d.discardsAttribute a v c) :
    discardedParameters ds a operation c = discardedAttributes ds a model c := by
  unfold discardedParameters discardedAttributes
  congr 1
  apply List.filter_congr
  intro d hd
  rw [hdiscards d hd, h.getOrUndefined_eq (hspares d hd).name]

theorem eraseAll_carries {names : List String} (h : Carries header operation model)
    (hnames : ∀ name ∈ names, name ∉ Entries.keys header) :
    Carries header (eraseAll names operation) (eraseAll names model) := by
  induction names generalizing operation model with
  | nil =>
      exact h
  | cons name rest ih =>
      exact ih (h.erase (hnames name List.mem_cons_self))
        fun other hother => hnames other (List.mem_cons_of_mem name hother)

/-!
# Rejecting, converting and renaming
-/

theorem rejections_of_carries (h : Carries header operation model)
    (hspares : ∀ d ∈ ds, d.Spares (Entries.keys header)) :
    rejections ds a operation c = rejections ds a model c := by
  unfold rejections
  generalize ([] : Rejections) = found
  induction ds generalizing found with
  | nil =>
      rfl
  | cons d rest ih =>
      simp only [List.foldl_cons, h.getOrUndefined_eq (hspares d List.mem_cons_self).name]
      exact ih (fun other hother => hspares other (List.mem_cons_of_mem d hother)) _

theorem convertIn_carries (hb : d.IsBuiltIn) (hspares : d.Spares (Entries.keys header))
    (h : Carries header operation model) : exists operation' model',
      run (d.convertIn a operation) c = (.ok operation', c) ∧
      run (d.convertIn a model) c = (.ok model', c) ∧ Carries header operation' model' := by
  have hhas : operation.has d.name = model.has d.name := by
    rw [Value.has, Value.has, h.get?_eq hspares.name]
  unfold convertIn
  rw [h.getOrUndefined_eq hspares.name, hhas]
  split
  · have hvalue := run_convert hb a (model.getOrUndefined d.name) c
    rw [run_bind_of_ok hvalue, run_bind_of_ok hvalue]
    split
    · rcases h.set hspares.name (d.converted a (model.getOrUndefined d.name) c) with
        ⟨operation', model', hoperation, hmodel, hcarries⟩
      rw [hoperation, hmodel]
      exact ⟨operation', model', rfl, rfl, hcarries⟩
    · exact ⟨operation, model, rfl, rfl, h⟩
  · exact ⟨operation, model, rfl, rfl, h⟩

theorem convertAll_carries (hb : ∀ d ∈ ds, d.IsBuiltIn)
    (hspares : ∀ d ∈ ds, d.Spares (Entries.keys header)) (h : Carries header operation model) :
    exists operation' model', run (convertAll a ds operation) c = (.ok operation', c) ∧
      run (convertAll a ds model) c = (.ok model', c) ∧ Carries header operation' model' := by
  induction ds generalizing operation model with
  | nil =>
      exact ⟨operation, model, rfl, rfl, h⟩
  | cons d rest ih =>
      rcases convertIn_carries (a := a) (c := c) (hb d List.mem_cons_self)
        (hspares d List.mem_cons_self) h with ⟨operation', model', hoperation, hmodel, hcarries⟩
      unfold convertAll
      rw [run_bind_of_ok hoperation, run_bind_of_ok hmodel]
      exact ih (fun other hother => hb other (List.mem_cons_of_mem d hother))
        (fun other hother => hspares other (List.mem_cons_of_mem d hother)) hcarries

theorem moveEntry_carries {name newName : String} (hname : name ∉ Entries.keys header)
    (hnew : newName ∉ Entries.keys header) (h : Carries header operation model) :
    exists operation' model', moveEntry operation name newName = .ok operation' ∧
      moveEntry model name newName = .ok model' ∧ Carries header operation' model' := by
  unfold moveEntry
  rw [h.entry?_eq hname]
  cases model.entry? name with
  | none => exact ⟨operation, model, rfl, rfl, h⟩
  | some value => exact (h.erase hname).set hnew value

theorem renameAll_carries (hspares : ∀ d ∈ ds, d.Spares (Entries.keys header))
    (h : Carries header operation model) :
    exists operation' model', renameAll ds operation = .ok operation' ∧
      renameAll ds model = .ok model' ∧ Carries header operation' model' := by
  induction ds generalizing operation model with
  | nil =>
      exact ⟨operation, model, rfl, rfl, h⟩
  | cons d rest ih =>
      have hrest := fun other hother => hspares other (List.mem_cons_of_mem d hother)
      have hhere := hspares d List.mem_cons_self
      unfold renameAll
      cases hnewName : d.newName? with
      | none => exact ih hrest h
      | some newName =>
          rcases moveEntry_carries hhere.name (hhere.newName newName hnewName) h with
            ⟨operation', model', hoperation, hmodel, hcarries⟩
          dsimp only
          rw [hoperation, hmodel]
          exact ih hrest hcarries

/-!
# Both ways
-/

/-- The rules for operations and those for models keep an operation and its model together, and
reject with the same details. -/
theorem transformParameters_carries (hb : ∀ d ∈ ds, d.IsBuiltIn) (hnames : (ds.map name).Nodup)
    (hspares : ∀ d ∈ ds, d.Spares (Entries.keys header))
    (hdiscards : ∀ d ∈ ds, forall v,
      d.discardsParameter a v operation c = d.discardsAttribute a v c)
    {operationName : String} (hname : Operation.name operation = .ok operationName)
    (h : Carries header operation model) :
    exists operation' model' details?, Carries header operation' model' ∧
      run (transformModel ds a model) c = (.ok model', c.afterRejecting a details?) ∧
      run (transformParameters ds a operation) c =
        (.ok (finish operation' (details?.map
          (rejectedAttributesMessage c.target a operationName))), c) := by
  have hdiscarded := discardedParameters_of_carries h hspares hdiscards
  have hfree : ∀ name ∈ discardedAttributes ds a model c, name ∉ Entries.keys header := by
    intro name hname
    rcases List.mem_map.mp hname with ⟨d, hd, rfl⟩
    exact (hspares d (List.mem_filter.mp hd).1).name
  have hreduced := eraseAll_carries h hfree
  have hkept : ∀ d ∈ remaining ds (discardedAttributes ds a model c),
      d.Spares (Entries.keys header) := fun d hd => hspares d (List.mem_filter.mp hd).1
  have hrejections := rejections_of_carries (a := a) (c := c) hreduced hkept
  rcases convertAll_carries (a := a) (c := c) (isBuiltIn_of_mem_remaining hb _) hkept hreduced with
    ⟨converted, convertedModel, hconverted, hconvertedModel, hcarries⟩
  rcases renameAll_carries hspares hcarries with ⟨operation', model', hsent, hmodel, hrenamed⟩
  rw [transformModel, transformParameters, run_get_bind, run_get_bind,
    discardFromModel_eq hnames, hdiscarded]
  simp only [List.nil_append, hrejections]
  rw [run_bind_of_ok hconverted, hsent]
  generalize rejections (remaining ds (discardedAttributes ds a model c)) a
    (eraseAll (discardedAttributes ds a model c) model) c = found
  cases hfound : found.isEmpty with
  | true =>
      refine ⟨operation', model', none, hrenamed, ?_, rfl⟩
      simp only [Bool.not_true, Bool.false_eq_true, if_false]
      rw [run_bind_of_ok hconvertedModel, hmodel]
      rfl
  | false =>
      refine ⟨operation', model', some found.messages, hrenamed, ?_, ?_⟩
      · have hwarn : run (TransformM.warn (rejectedResourceMessage c.target a found.messages)) c =
            (.ok (), c.reporting [rejectedResourceMessage c.target a found.messages]) := by
          rfl
        have hafter := (reports_convertAll (isBuiltIn_of_mem_remaining hb _) a _).run_of_silent
          (c.fresh_reporting [rejectedResourceMessage c.target a found.messages]) hconvertedModel
        simp only [Bool.not_false, if_true]
        rw [run_bind_of_ok hwarn, run_bind_of_ok hafter, hmodel]
        rfl
      · rw [hname]
        rfl

end AttributeDescription
end MixedDomain
