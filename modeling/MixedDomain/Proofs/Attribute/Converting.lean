import MixedDomain.Proofs.Attribute.Renaming

/-!
# Converted attributes

## Conversions

A built-in conversion always makes a value, and leaves the context as it is.  In an
object, or where nothing is yet, this value can be set.  Entries can be renamed there.

## Attributes by themselves

As attributes have distinct names, each conversion reads what the attribute was at
first and says what it is at last.
-/

namespace MixedDomain
namespace AttributeDescription

open TransformM

variable {d : AttributeDescription} {ds : List AttributeDescription} {a : Address}
  {c c' : Context} {v v' : Value} {p : Value -> Prop}

def converted (d : AttributeDescription) (a : Address) (v : Value) (c : Context) : Value :=
  match d.conversion? with
  | some .default =>
      if v.isDefined then v else (DiscardCheck.attributeDefault? a d.name c).getD v
  | some (.fixed value) => value
  | _ => v

theorem run_convert (hb : d.IsBuiltIn) (a : Address) (v : Value) (c : Context) :
    run (d.convert a v) c = (.ok (d.converted a v c), c) := by
  unfold convert converted
  cases hconversion : d.conversion? with
  | none => rfl
  | some conversion =>
      cases conversion with
      | default =>
          cases hdefined : v.isDefined with
          | true => simp [Conversion.convert, hdefined, run_pure]
          | false =>
              simp only [Conversion.convert, hdefined]
              rfl
      | fixed value => rfl
      | apply convert => exact (hb.conversion _ hconversion).elim

def convertedEntry? (d : AttributeDescription) (a : Address) (old? : Option Value) (c : Context) :
    Option Value :=
  if d.conversion?.isSome then
    let value := d.converted a (old?.getD .undefined) c
    if old?.isSome || value.isDefined then some value else none
  else
    old?

theorem convertedEntry?_some (d : AttributeDescription) (a : Address) (v : Value) (c : Context) :
    d.convertedEntry? a (some v) c = some (d.converted a v c) := by
  unfold convertedEntry? converted
  cases d.conversion? <;> simp

theorem run_convertIn_of_takesEdits (hp : Value.TakesEdits p) (hb : d.IsBuiltIn) (a : Address)
    (c : Context) (hv : p v) : exists v', run (d.convertIn a v) c = (.ok v', c) ∧ p v' := by
  unfold convertIn
  split
  · rw [run_bind_of_ok (run_convert hb a (v.getOrUndefined d.name) c)]
    split
    · rcases hp.set d.name (d.converted a (v.getOrUndefined d.name) c) hv with ⟨v', hset, hv'⟩
      rw [hset]
      exact ⟨v', rfl, hv'⟩
    · exact ⟨v, rfl, hv⟩
  · exact ⟨v, rfl, hv⟩

theorem run_convertAll_of_takesEdits (hp : Value.TakesEdits p) (hb : ∀ d ∈ ds, d.IsBuiltIn)
    (a : Address) (c : Context) (hv : p v) :
    exists v', run (convertAll a ds v) c = (.ok v', c) ∧ p v' := by
  induction ds generalizing v with
  | nil =>
      exact ⟨v, rfl, hv⟩
  | cons d rest ih =>
      rcases run_convertIn_of_takesEdits hp (hb d List.mem_cons_self) a c hv with
        ⟨mid, hfirst, hmid⟩
      unfold convertAll
      rw [run_bind_of_ok hfirst]
      exact ih (fun other hother => hb other (List.mem_cons_of_mem d hother)) hmid

theorem renameAll_of_takesEdits (hp : Value.TakesEdits p) (ds : List AttributeDescription)
    (hv : p v) : exists v', renameAll ds v = .ok v' ∧ p v' := by
  induction ds generalizing v with
  | nil =>
      exact ⟨v, rfl, hv⟩
  | cons d rest ih =>
      unfold renameAll
      cases d.newName? with
      | none => exact ih hv
      | some newName =>
          unfold moveEntry
          cases v.entry? d.name with
          | none => exact ih hv
          | some value =>
              rcases hp.set newName value (hp.erase d.name hv) with ⟨moved, hset, hmoved⟩
              dsimp only
              rw [hset]
              exact ih hmoved

/-!
# What is converted
-/

theorem get?_of_convertIn (hb : d.IsBuiltIn) (hrun : run (d.convertIn a v) c = (.ok v', c')) :
    c' = c ∧ v'.get? d.name = d.convertedEntry? a (v.get? d.name) c := by
  unfold convertIn at hrun
  unfold convertedEntry?
  split at hrun
  · rename_i hconversion
    rw [run_bind_of_ok (run_convert hb a (v.getOrUndefined d.name) c)] at hrun
    rw [if_pos hconversion]
    split at hrun
    · rename_i hset
      rcases run_ofValue_eq_ok hrun with ⟨hvalue, rfl⟩
      refine ⟨rfl, (Value.get?_of_set_self hvalue).trans ?_⟩
      exact (if_pos hset).symm
    · rename_i hunset
      cases hrun
      refine ⟨rfl, Eq.trans ?_ (if_neg hunset).symm⟩
      simpa [Value.has] using (fun h => hunset (by simp [Value.has, h]) : ¬ (v.get? d.name).isSome)
  · rename_i hnone
    cases hrun
    exact ⟨rfl, (if_neg hnone).symm⟩

/-- Each attribute is converted by its own description only. -/
theorem get?_of_convertAll_of_mem (hb : ∀ d ∈ ds, d.IsBuiltIn) (hnames : (ds.map name).Nodup)
    (hd : d ∈ ds) (hrun : run (convertAll a ds v) c = (.ok v', c')) :
    v'.get? d.name = d.convertedEntry? a (v.get? d.name) c := by
  induction ds generalizing v with
  | nil =>
      cases hd
  | cons first rest ih =>
      rw [List.map_cons, List.nodup_cons] at hnames
      have hothers : ∀ other ∈ rest, other.IsBuiltIn :=
        fun other hother => hb other (List.mem_cons_of_mem first hother)
      rcases run_bind_eq_ok hrun with ⟨mid, _, hfirst, hrest⟩
      rcases get?_of_convertIn (hb first List.mem_cons_self) hfirst with ⟨rfl, hown⟩
      rcases List.mem_cons.mp hd with rfl | hmem
      · have hkept : v'.get? d.name = mid.get? d.name := by
          refine convertAll_keeps (p := fun w => w.get? d.name = mid.get? d.name) ?_ rfl hrest
          intro other hother w value w' hw hset
          have hne : d.name ≠ other.name := fun heq =>
            hnames.1 (heq ▸ List.mem_map_of_mem hother)
          exact (Value.get?_of_set hne hset).trans hw
        rw [hkept, hown]
      · have hne : d.name ≠ first.name := fun heq =>
          hnames.1 (heq ▸ List.mem_map_of_mem hmem)
        have hsame : mid.get? d.name = v.get? d.name := by
          rcases convertIn_eq_ok hfirst with rfl | ⟨value, hset⟩
          · rfl
          · exact Value.get?_of_set hne hset
        rw [ih hothers hnames.2 hmem hrest, hsame]

end AttributeDescription
end MixedDomain
