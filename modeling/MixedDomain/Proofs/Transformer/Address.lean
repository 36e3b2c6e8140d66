import MixedDomain.Proofs.Address.Text
import MixedDomain.Proofs.Attribute.Renaming
import MixedDomain.Proofs.Sequence
import MixedDomain.Proofs.Transformer.BuiltIn

/-!
# Transformers keep addresses

## Parameters and the address

The address of an operation is an entry among its parameters.  It stays as it is
when no attribute has its name, neither on the source nor on the target.

## What is sent

Rules and built-in transformers change parameters and the name of an operation.
Whatever they send has the address that the operation came with.
-/

namespace MixedDomain

open TransformM

variable {a : Address} {c c' : Context} {v v' operation : Value} {o : Outcome}

/-!
# Phases of rules
-/

namespace AttributeDescription

variable {d : AttributeDescription} {ds : List AttributeDescription}

theorem get?_eraseAll {key : String} {names : List String} (h : key ∉ names) (v : Value) :
    (eraseAll names v).get? key = v.get? key :=
  List.foldlRecOn (motive := fun w => w.get? key = v.get? key) names _ rfl
    fun w hw _ hname => (Value.get?_erase_of_ne (ne_of_mem_of_not_mem hname h).symm w).trans hw

theorem get?_of_convertAll {key : String} (h : ∀ d ∈ ds, key ≠ d.name)
    (hrun : run (convertAll a ds v) c = (.ok v', c')) : v'.get? key = v.get? key := by
  refine convertAll_keeps (p := fun w => w.get? key = v.get? key) ?_ rfl hrun
  intro d hd w value w' hw hset
  exact (Value.get?_of_set (h d hd) hset).trans hw

theorem get?_of_moveEntry {key name newName : String} (hname : key ≠ name)
    (hnew : key ≠ newName) (h : moveEntry v name newName = .ok v') : v'.get? key = v.get? key := by
  unfold moveEntry at h
  split at h
  · exact (Value.get?_of_set hnew h).trans (Value.get?_erase_of_ne hname v)
  · cases h
    rfl

theorem get?_of_renameAll {key : String} (h : ∀ d ∈ ds, d.Spares [key])
    (hrename : renameAll ds v = .ok v') : v'.get? key = v.get? key := by
  induction ds generalizing v with
  | nil =>
      cases hrename
      rfl
  | cons d rest ih =>
      have hrest := fun other hother => h other (List.mem_cons_of_mem d hother)
      have hspares := h d List.mem_cons_self
      unfold renameAll at hrename
      split at hrename
      · rename_i newName hnewName
        rcases Except.bind_eq_ok hrename with ⟨moved, hmove, hafter⟩
        have hmoved := get?_of_moveEntry (List.ne_of_not_mem_cons hspares.name).symm
          (List.ne_of_not_mem_cons (hspares.newName newName hnewName)).symm hmove
        exact (ih hrest hafter).trans hmoved
      · exact ih hrest hrename

theorem not_mem_discardedParameters {key : String} (h : ∀ d ∈ ds, d.Spares [key])
    (operation : Value) (c : Context) : key ∉ discardedParameters ds a operation c := by
  intro hmem
  rcases List.mem_map.mp hmem with ⟨d, hd, hname⟩
  exact List.ne_of_not_mem_cons (h d (List.mem_filter.mp hd).1).name hname

end AttributeDescription

/-!
# Rules
-/

def Outcome.KeepsAddress (operation : Value) (o : Outcome) : Prop :=
  ∀ sent ∈ o.operation?, sent.get? Operation.addressKey = operation.get? Operation.addressKey

namespace Outcome

theorem keepsAddress_discarded (operation : Value) : discarded.KeepsAddress operation := by
  intro sent hsent
  cases hsent

theorem keepsAddress_of_operation? {sent : Value} (hsent : o.operation? = some sent)
    (h : sent.get? Operation.addressKey = operation.get? Operation.addressKey) :
    o.KeepsAddress operation := by
  intro other hother
  rw [hsent] at hother
  cases hother
  exact h

end Outcome

namespace AttributeDescription

variable {d : AttributeDescription} {ds : List AttributeDescription}

theorem keepsAddress_of_transformParameters (h : ∀ d ∈ ds, d.Spares [Operation.addressKey])
    (hrun : run (transformParameters ds a operation) c = (.ok o, c')) :
    o.KeepsAddress operation := by
  rcases operation?_of_run_transformParameters hrun with
    ⟨converted, sent, mid, hconverted, hrenamed, hsent⟩
  rw [convertedParameters, run_get_bind] at hconverted
  have hreduced := get?_eraseAll (not_mem_discardedParameters (a := a) h operation c) operation
  have hnames : ∀ d ∈ remaining ds (discardedParameters ds a operation c),
      Operation.addressKey ≠ d.name := fun d hd =>
    (List.ne_of_not_mem_cons (h d (List.mem_filter.mp hd).1).name).symm
  have hkept := get?_of_convertAll hnames hconverted
  have hnamed := get?_of_renameAll h hrenamed
  exact Outcome.keepsAddress_of_operation? hsent (hnamed.trans (hkept.trans hreduced))

/-- An operation on one attribute changes no parameter but the one that names the attribute. -/
theorem keepsAddress_of_transformNamed {value : Value} {named : NamedAttribute}
    (hrun : run (d.transformNamed a operation value) c = (.ok (some named), c')) :
    named.operation.get? Operation.addressKey = operation.get? Operation.addressKey := by
  rw [transformNamed, run_get_bind] at hrun
  split at hrun
  · cases hrun
  · rcases run_bind_eq_ok hrun with ⟨converted, mid, _, hrest⟩
    cases hnew : d.newName? with
    | none =>
        rw [hnew] at hrest
        cases hrest
        rfl
    | some newName =>
        rw [hnew] at hrest
        rcases run_bind_eq_ok hrest with ⟨renamed, _, hset, hend⟩
        cases hend
        exact Value.get?_of_set (by decide) (run_ofValue_eq_ok hset).1

theorem keepsAddress_of_transformWrite
    (hrun : run (transformWrite ds a operation) c = (.ok o, c')) : o.KeepsAddress operation := by
  rcases run_bind_eq_ok hrun with ⟨name, _, _, hfound⟩
  split at hfound
  · cases hfound
    exact Outcome.keepsAddress_of_operation? rfl rfl
  · rcases run_bind_eq_ok hfound with ⟨named?, mid, hnamed, hrest⟩
    cases named? with
    | none =>
        cases hrest
        exact Outcome.keepsAddress_discarded operation
    | some named =>
        rcases run_bind_eq_ok hrest with ⟨written, _, hset, hend⟩
        cases hend
        apply Outcome.keepsAddress_of_operation? (operation?_finish _ _)
        exact (Value.get?_of_set (by decide) (run_ofValue_eq_ok hset).1).trans
          (keepsAddress_of_transformNamed hnamed)

theorem keepsAddress_of_transformUndefine
    (hrun : run (transformUndefine ds a operation) c = (.ok o, c')) : o.KeepsAddress operation := by
  rcases run_bind_eq_ok hrun with ⟨name, _, _, hfound⟩
  split at hfound
  · cases hfound
    exact Outcome.keepsAddress_of_operation? rfl rfl
  · rcases run_bind_eq_ok hfound with ⟨named?, mid, hnamed, hrest⟩
    cases named? with
    | none =>
        cases hrest
        exact Outcome.keepsAddress_discarded operation
    | some named =>
        have hkept := keepsAddress_of_transformNamed hnamed
        dsimp only at hrest
        split at hrest
        · rcases run_bind_eq_ok hrest with ⟨write, _, hname, hwritten⟩
          rcases run_bind_eq_ok hwritten with ⟨written, _, hvalue, hend⟩
          cases hend
          apply Outcome.keepsAddress_of_operation? (operation?_finish _ _)
          exact (Value.get?_of_set (by decide) (run_ofValue_eq_ok hvalue).1).trans
            ((Value.get?_of_set (by decide) (run_ofValue_eq_ok hname).1).trans hkept)
        · cases hrest
          exact Outcome.keepsAddress_of_operation? (operation?_finish _ _) hkept

end AttributeDescription

namespace Rule

def SparesAddress : Rule -> Prop
  | .parameters ds => ∀ d ∈ ds, d.Spares [Operation.addressKey]
  | _ => True

instance : (rule : Rule) -> Decidable rule.SparesAddress
  | .parameters ds => inferInstanceAs (Decidable (∀ d ∈ ds, d.Spares [Operation.addressKey]))
  | .write _ => isTrue trivial
  | .undefine _ => isTrue trivial
  | .rename _ => isTrue trivial

theorem keepsAddress_of_onOperation {rule : Rule} (h : rule.SparesAddress)
    (hrun : run (rule.onOperation a operation) c = (.ok o, c')) : o.KeepsAddress operation := by
  cases rule with
  | parameters ds => exact AttributeDescription.keepsAddress_of_transformParameters h hrun
  | write ds => exact AttributeDescription.keepsAddress_of_transformWrite hrun
  | undefine ds => exact AttributeDescription.keepsAddress_of_transformUndefine hrun
  | rename name =>
      rcases run_bind_eq_ok hrun with ⟨renamed, _, hset, hend⟩
      cases hend
      exact Outcome.keepsAddress_of_operation? rfl
        (Value.get?_of_set (by decide) (run_ofValue_eq_ok hset).1)

/-- What is left after rules has the address, and is what the last of them sends. -/
theorem keepsAddress_of_runAll {rules : List Rule} (h : ∀ rule ∈ rules, rule.SparesAddress)
    {outcomes : List Outcome} {left? : Option Value}
    (hrun : run (runAll a rules operation) c = (.ok (outcomes, left?), c')) :
    (∀ left ∈ left?, left.get? Operation.addressKey = operation.get? Operation.addressKey) ∧
      ((outcomes = [] ∧ left? = some operation) ∨
        (outcomes ≠ [] ∧ outcomes.getLast?.bind Outcome.operation? = left?)) := by
  induction rules generalizing operation c outcomes with
  | nil =>
      cases hrun
      constructor
      · rintro _ ⟨⟩
        rfl
      · exact Or.inl ⟨rfl, rfl⟩
  | cons rule rest ih =>
      rcases run_bind_eq_ok hrun with ⟨outcome, mid, hfirst, hafter⟩
      have hkept := keepsAddress_of_onOperation (h rule List.mem_cons_self) hfirst
      split at hafter
      · rename_i hnone
        cases hafter
        exact ⟨nofun, Or.inr ⟨List.cons_ne_nil _ _, by simp [hnone]⟩⟩
      · rename_i next hsome
        rcases run_bind_eq_ok hafter with ⟨⟨others, last⟩, _, hrest, hend⟩
        cases hend
        rcases ih (fun other hother => h other (List.mem_cons_of_mem rule hother)) hrest with
          ⟨hleft, hlast⟩
        constructor
        · intro left hmem
          exact (hleft left hmem).trans (hkept next hsome)
        · right
          refine ⟨List.cons_ne_nil _ _, ?_⟩
          rcases hlast with ⟨rfl, rfl⟩ | ⟨hne, hlast⟩
          · simp [hsome]
          · rw [List.getLast?_cons_of_ne_nil hne, hlast]

end Rule

/-!
# Transformers
-/

namespace Transformer

def SparesAddress : Transformer -> Prop
  | .discardUndefined names => Operation.addressKey ∉ names
  | .chain rules none => ∀ rule ∈ rules, rule.SparesAddress
  | .chain rules (some last) => (∀ rule ∈ rules, rule.SparesAddress) ∧ last.SparesAddress
  | _ => True

/-- Decides about the rules of a transformer, and about the transformer at their end. -/
def decideSparesAddress : (transformer : Transformer) -> Decidable transformer.SparesAddress
  | .pass => isTrue trivial
  | .discard => isTrue trivial
  | .reject _ => isTrue trivial
  | .rename _ => isTrue trivial
  | .apply _ => isTrue trivial
  | .discardUndefined names => inferInstanceAs (Decidable (Operation.addressKey ∉ names))
  | .chain rules none => inferInstanceAs (Decidable (∀ rule ∈ rules, rule.SparesAddress))
  | .chain rules (some last) =>
      match decideSparesAddress last with
      | isTrue hlast =>
          decidable_of_iff (∀ rule ∈ rules, rule.SparesAddress)
            ⟨fun hrules => ⟨hrules, hlast⟩, fun h => h.1⟩
      | isFalse hlast => isFalse fun h => hlast h.2

instance (transformer : Transformer) : Decidable transformer.SparesAddress :=
  decideSparesAddress transformer

theorem get?_discardUndefinedFrom {key : String} {names : List String} (h : key ∉ names)
    (v : Value) : (discardUndefinedFrom names v).1.get? key = v.get? key := by
  induction names generalizing v with
  | nil =>
      rfl
  | cons name rest ih =>
      rw [List.mem_cons, not_or] at h
      unfold discardUndefinedFrom
      split
      · exact ih h.2 v
      · exact (ih h.2 _).trans (Value.get?_erase_of_ne h.1 v)

theorem keepsAddress_of_discardUndefinedAttributes {names : List String}
    (h : Operation.addressKey ∉ names)
    (hrun : TransformM.run (discardUndefinedAttributes names a operation) c = (.ok o, c')) :
    o.KeepsAddress operation := by
  have hreduced := get?_discardUndefinedFrom h operation
  rcases run_bind_eq_ok hrun with ⟨name, mid, _, hread⟩
  rw [run_get_bind] at hread
  split at hread
  · rcases run_bind_eq_ok hread with ⟨attributeName, _, _, hdecide⟩
    split at hdecide
    · cases hdecide
      exact Outcome.keepsAddress_of_operation? rfl rfl
    · split at hdecide
      · cases hdecide
        exact Outcome.keepsAddress_discarded operation
      · cases hdecide
        exact Outcome.keepsAddress_of_operation? rfl rfl
  · split at hread
    · dsimp only at hread
      split at hread
      · cases hread
        exact Outcome.keepsAddress_of_operation? rfl hreduced
      · cases hread
        exact Outcome.keepsAddress_of_operation? rfl hreduced
    · cases hread
      exact Outcome.keepsAddress_of_operation? rfl rfl

theorem operation?_of_rejectOperation {detail? : Option String}
    (hrun : TransformM.run (rejectOperation detail? a operation) c = (.ok o, c')) :
    o.operation? = some operation := by
  rcases run_bind_eq_ok hrun with ⟨name, mid, _, hread⟩
  rw [run_get_bind] at hread
  rcases run_bind_eq_ok hread with ⟨_, _, _, hend⟩
  cases hend
  rfl

theorem keepsAddress_of_run {transformer : Transformer} (hb : transformer.IsBuiltIn)
    (h : transformer.SparesAddress)
    (hrun : TransformM.run (transformer.run a operation) c = (.ok o, c')) :
    o.KeepsAddress operation := by
  induction transformer, a, operation using Transformer.run.induct generalizing o c c' with
  | case1 a operation =>
      cases hrun
      exact Outcome.keepsAddress_of_operation? rfl rfl
  | case2 a operation =>
      cases hrun
      exact Outcome.keepsAddress_discarded operation
  | case3 detail? a operation =>
      exact Outcome.keepsAddress_of_operation? (operation?_of_rejectOperation hrun) rfl
  | case4 name a operation =>
      have hspares : (Rule.rename name).SparesAddress := trivial
      exact Rule.keepsAddress_of_onOperation hspares hrun
  | case5 names a operation => exact keepsAddress_of_discardUndefinedAttributes h hrun
  | case6 transform a operation => exact hb.elim
  | case7 rules a operation =>
      rw [Transformer.run] at hrun
      rcases run_guarded_eq_ok hrun with ⟨c₁, c₂, hinside⟩
      rcases run_bind_eq_ok hinside with ⟨⟨outcomes, left?⟩, mid, hrules, hend⟩
      rcases Rule.keepsAddress_of_runAll h hrules with ⟨hleft, hlast⟩
      have hchained : (Outcome.chained outcomes).operation? =
          outcomes.getLast?.bind Outcome.operation? := by
        rfl
      rcases hlast with ⟨rfl, rfl⟩ | ⟨hne, hlast⟩
      · cases hend
        exact Outcome.keepsAddress_of_operation? rfl rfl
      · cases left? with
        | none =>
            cases hend
            intro sent hsent
            rw [hchained, hlast] at hsent
            cases hsent
        | some left =>
            dsimp only at hend
            rw [if_neg (by simpa using hne)] at hend
            cases hend
            exact Outcome.keepsAddress_of_operation? (hchained.trans hlast) (hleft left rfl)
  | case8 rules last a operation ih =>
      rw [Transformer.run] at hrun
      rcases run_guarded_eq_ok hrun with ⟨c₁, c₂, hinside⟩
      rcases run_bind_eq_ok hinside with ⟨⟨outcomes, left?⟩, mid, hrules, hend⟩
      rcases Rule.keepsAddress_of_runAll h.1 hrules with ⟨hleft, hlast⟩
      cases left? with
      | none =>
          cases hend
          rcases hlast with ⟨_, hsome⟩ | ⟨_, hlast⟩
          · cases hsome
          · intro sent hsent
            have hnone : (Outcome.chained outcomes).operation? = none := hlast
            rw [hnone] at hsent
            cases hsent
      | some left =>
          rcases run_bind_eq_ok hend with ⟨outcome, _, hfinal, hpure⟩
          cases hpure
          intro sent hsent
          have hlastly : (Outcome.chained (outcomes ++ [outcome])).operation? =
              outcome.operation? := by
            simp [Outcome.chained]
          rw [hlastly] at hsent
          exact (ih left hb.2 h.2 hfinal sent hsent).trans (hleft left rfl)

end Transformer
end MixedDomain
