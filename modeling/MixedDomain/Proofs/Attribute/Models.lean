import MixedDomain.Proofs.Attribute.Adding
import MixedDomain.Proofs.Attribute.Rejecting
import MixedDomain.Proofs.Transformer.Address

/-!
# Rules for models

## Warnings

The rules for the model of a resource leave one trace in the context.  They warn of
the resource once if some attribute that is not discarded is rejected by one of its
checks, whatever else happens to the model.

## Success

Where attributes can be set, the rules always end with a model.
-/

namespace MixedDomain
namespace AttributeDescription

open TransformM

variable {d : AttributeDescription} {ds : List AttributeDescription} {a : Address}
  {c : Context} {v model : Value}

def keptAttributes (ds : List AttributeDescription) (a : Address) (model : Value) (c : Context) :
    List AttributeDescription :=
  ds.filter fun d => !d.discardsAttribute a (model.getOrUndefined d.name) c

def rejectedAttributes (ds : List AttributeDescription) (a : Address) (model : Value)
    (c : Context) : List AttributeDescription :=
  (keptAttributes ds a model c).filter fun d =>
    d.rejects.any fun check => check.rejects a d.name (model.getOrUndefined d.name) c

def modelRejections (ds : List AttributeDescription) (a : Address) (model : Value) (c : Context) :
    Rejections :=
  rejections (keptAttributes ds a model c) a model c

def rejectionWarnings (ds : List AttributeDescription) (a : Address) (model : Value)
    (c : Context) : List String :=
  if (rejectedAttributes ds a model c).isEmpty then []
  else [rejectedResourceMessage c.target a (modelRejections ds a model c).messages]

/-!
# Rejections
-/

theorem modelRejections_eq_nil_iff :
    modelRejections ds a model c = [] ↔ rejectedAttributes ds a model c = [] := by
  rw [modelRejections, rejections_eq_nil_iff, rejectedAttributes, List.filter_eq_nil_iff]
  simp [rejecting, List.filter_eq_nil_iff]

theorem rejectionWarnings_fresh (hb : ∀ d ∈ ds, d.IsBuiltIn) (a : Address) (model : Value)
    (c : Context) : rejectionWarnings ds a model c.fresh = rejectionWarnings ds a model c := by
  have hkept : keptAttributes ds a model c.fresh = keptAttributes ds a model c := by
    apply List.filter_congr
    intro d hd
    rw [discardsAttribute_fresh (hb d hd)]
  have hmodel : modelRejections ds a model c.fresh = modelRejections ds a model c := by
    rw [modelRejections, hkept]
    exact rejections_fresh (fun d hd => hb d (List.mem_filter.mp hd).1) a model c
  have hempty : (rejectedAttributes ds a model c.fresh).isEmpty =
      (rejectedAttributes ds a model c).isEmpty := by
    rw [Bool.eq_iff_iff, List.isEmpty_iff, List.isEmpty_iff, ← modelRejections_eq_nil_iff,
      ← modelRejections_eq_nil_iff, hmodel]
  rw [rejectionWarnings, rejectionWarnings, hempty, hmodel]
  rfl

theorem rejections_congr {w : Value}
    (h : ∀ d ∈ ds, v.getOrUndefined d.name = w.getOrUndefined d.name) :
    rejections ds a v c = rejections ds a w c := by
  unfold rejections
  generalize ([] : Rejections) = found
  induction ds generalizing found with
  | nil =>
      rfl
  | cons d rest ih =>
      simp only [List.foldl_cons, h d List.mem_cons_self]
      exact ih (fun other hother => h other (List.mem_cons_of_mem d hother)) _

theorem rejections_remaining (hnames : (ds.map name).Nodup) :
    rejections (remaining ds (discardedAttributes ds a model c)) a
      (eraseAll (discardedAttributes ds a model c) model) c = modelRejections ds a model c := by
  have hdiscarded : ∀ d ∈ ds, d.name ∈ discardedAttributes ds a model c ↔
      d.discardsAttribute a (model.getOrUndefined d.name) c :=
    fun d hd => name_mem_filter_iff hnames hd _
  have hkept : remaining ds (discardedAttributes ds a model c) = keptAttributes ds a model c := by
    apply List.filter_congr
    intro d hd
    rw [Bool.eq_iff_iff]
    simp [hdiscarded d hd]
  rw [hkept, modelRejections]
  apply rejections_congr
  intro d hd
  rcases List.mem_filter.mp hd with ⟨hmem, hkeeps⟩
  have hfree : d.name ∉ discardedAttributes ds a model c := by
    rw [hdiscarded d hmem]
    simpa using hkeeps
  rw [Value.getOrUndefined, get?_eraseAll hfree, ← Value.getOrUndefined]

/-!
# Runs
-/

theorem run_convertIn_snd (hb : d.IsBuiltIn) (a : Address) (v : Value) (c : Context) :
    (run (d.convertIn a v) c).2 = c := by
  unfold convertIn
  split
  · rw [run_bind_of_ok (run_convert hb a (v.getOrUndefined d.name) c)]
    split
    · cases v.set d.name (d.converted a (v.getOrUndefined d.name) c) <;> rfl
    · rfl
  · rfl

theorem run_convertAll_snd (hb : ∀ d ∈ ds, d.IsBuiltIn) (a : Address) (v : Value) (c : Context) :
    (run (convertAll a ds v) c).2 = c := by
  induction ds generalizing v with
  | nil =>
      rfl
  | cons d rest ih =>
      apply run_bind_snd (run_convertIn_snd (hb d List.mem_cons_self) a v c)
      intro v'
      exact ih (fun other hother => hb other (List.mem_cons_of_mem d hother)) v'

/-- The rules warn of what is rejected, and leave nothing else in the context. -/
theorem run_transformModel_snd (hb : ∀ d ∈ ds, d.IsBuiltIn) (hnames : (ds.map name).Nodup)
    (a : Address) (model : Value) (c : Context) :
    (run (transformModel ds a model) c).2 = c.reporting (rejectionWarnings ds a model c) := by
  have hafter : forall c' : Context, (run (do
      let converted ← convertAll a (remaining ds (discardedAttributes ds a model c))
        (eraseAll (discardedAttributes ds a model c) model)
      ofValue (renameAll ds converted)) c').2 = c' := fun c' =>
    run_bind_snd (run_convertAll_snd (isBuiltIn_of_mem_remaining hb _) a _ c')
      fun _ => run_ofValue_snd _ c'
  rw [transformModel, run_get_bind, discardFromModel_eq hnames, rejectionWarnings]
  simp only [List.nil_append, rejections_remaining hnames]
  by_cases hnone : rejectedAttributes ds a model c = []
  · rw [modelRejections_eq_nil_iff.mpr hnone, hnone]
    exact (hafter c).trans (Context.reporting_nil c).symm
  · have hsome : (modelRejections ds a model c).isEmpty = false := by
      simpa [modelRejections_eq_nil_iff] using hnone
    have hwarned : (rejectedAttributes ds a model c).isEmpty = false := by
      simpa using hnone
    rw [hsome, hwarned]
    exact hafter _

/-- The rules for a model in which attributes can be set always end with one. -/
theorem run_transformModel_of_isModel (hb : ∀ d ∈ ds, d.IsBuiltIn) (hnames : (ds.map name).Nodup)
    (a : Address) (c : Context) (hmodel : model.IsModel) :
    exists v, (run (transformModel ds a model) c).1 = .ok v := by
  have hreduced := eraseAll_keeps Value.keptByEdits_isModel hmodel
    (discardedAttributes ds a model c)
  have hafter : forall c' : Context, exists v, (run (do
      let converted ← convertAll a (remaining ds (discardedAttributes ds a model c))
        (eraseAll (discardedAttributes ds a model c) model)
      ofValue (renameAll ds converted)) c').1 = .ok v := by
    intro c'
    rcases run_convertAll_of_takesEdits Value.takesEdits_isModel (isBuiltIn_of_mem_remaining hb _)
      a c' hreduced with ⟨converted, hconverted, hmodel'⟩
    rcases renameAll_of_takesEdits Value.takesEdits_isModel ds hmodel' with ⟨v, hv, _⟩
    rw [run_bind_of_ok hconverted, hv]
    exact ⟨v, rfl⟩
  rw [transformModel, run_get_bind, discardFromModel_eq hnames]
  simp only [List.nil_append]
  split
  · exact hafter _
  · exact hafter c

end AttributeDescription
end MixedDomain
