import MixedDomain.Proofs.Attribute.BuiltIn
import MixedDomain.Proofs.Rejection
import MixedDomain.Transformer

/-!
# Built-in rules and transformers

## Rules

A rule is built-in when the descriptions that it applies are.  Its phases read the
context only through checks, conversions and messages about the target.  It
rejects everything or nothing, so that its outcomes are fixed.

## Transformers

A chain of built-in rules is a built-in transformer.  Such a transformer ends in
every context as in a fresh one, although it protects the resources for a while.
-/

namespace MixedDomain

open TransformM

/-!
# Phases of rules
-/

namespace AttributeDescription

variable {ds : List AttributeDescription}

theorem discardedParameters_fresh (h : ∀ d ∈ ds, d.IsBuiltIn) (a : Address) (operation : Value)
    (c : Context) :
    discardedParameters ds a operation c.fresh = discardedParameters ds a operation c := by
  unfold discardedParameters
  congr 1
  apply List.filter_congr
  intro d hd
  exact discardsParameter_fresh (h d hd) a _ operation c

theorem discardFromModel_fresh (h : ∀ d ∈ ds, d.IsBuiltIn) (a : Address) (c : Context)
    (state : Value × List String) :
    discardFromModel a c.fresh ds state = discardFromModel a c ds state := by
  induction ds generalizing state with
  | nil =>
      rfl
  | cons d rest ih =>
      have hrest : ∀ other ∈ rest, other.IsBuiltIn :=
        fun other hother => h other (List.mem_cons_of_mem d hother)
      simp only [discardFromModel, discardsAttribute_fresh (h d List.mem_cons_self), ih hrest]

theorem rejections_fresh (h : ∀ d ∈ ds, d.IsBuiltIn) (a : Address) (v : Value) (c : Context) :
    rejections ds a v c.fresh = rejections ds a v c := by
  unfold rejections
  generalize ([] : Rejections) = found
  induction ds generalizing found with
  | nil =>
      rfl
  | cons d rest ih =>
      have hrest : ∀ other ∈ rest, other.IsBuiltIn :=
        fun other hother => h other (List.mem_cons_of_mem d hother)
      simp only [List.foldl_cons, addRejections_fresh (h d List.mem_cons_self), ih hrest]

theorem isBuiltIn_of_mem_remaining (h : ∀ d ∈ ds, d.IsBuiltIn) (discarded : List String) :
    ∀ d ∈ remaining ds discarded, d.IsBuiltIn := by
  intro d hd
  exact h d (List.mem_filter.mp hd).1

theorem isBuiltIn_of_find? (h : ∀ d ∈ ds, d.IsBuiltIn) {name : String}
    {d : AttributeDescription} (hfind : find? name ds = some d) : d.IsBuiltIn :=
  h d (List.mem_of_find?_eq_some hfind)

theorem forall_mem_merge {p : AttributeDescription -> Prop}
    {base overriding : List AttributeDescription}
    (hbase : ∀ d ∈ base, p d) (hoverriding : ∀ d ∈ overriding, p d) :
    ∀ d ∈ merge base overriding, p d := by
  intro d hd
  rcases List.mem_append.mp hd with hold | hnew
  · exact hbase d (List.mem_filter.mp hold).1
  · exact hoverriding d hnew

theorem reports_convertIn {d : AttributeDescription} (h : d.IsBuiltIn) (a : Address) (v : Value) :
    Reports (d.convertIn a v) := by
  apply reports_ite
  · apply reports_bind (reports_convert h a _)
    intro value
    apply reports_ite
    · exact reports_ofValue _
    · exact reports_pure v
  · exact reports_pure v

theorem reports_convertAll (h : ∀ d ∈ ds, d.IsBuiltIn) (a : Address) (v : Value) :
    Reports (convertAll a ds v) := by
  induction ds generalizing v with
  | nil =>
      exact reports_pure v
  | cons d rest ih =>
      apply reports_bind (reports_convertIn (h d List.mem_cons_self) a v)
      intro v
      exact ih (fun other hother => h other (List.mem_cons_of_mem d hother)) v

theorem operation?_finish (operation : Value) (rejection? : Option String) :
    (finish operation rejection?).operation? = some operation := by
  cases rejection? <;> rfl

theorem isFixed_finish (operation : Value) (rejection? : Option String) :
    (finish operation rejection?).IsFixed := by
  cases rejection? with
  | none => exact Outcome.isFixed_send operation
  | some description => exact Outcome.isFixed_rejected operation description

theorem reportsWith_transformParameters (h : ∀ d ∈ ds, d.IsBuiltIn) (a : Address)
    (operation : Value) : ReportsWith Outcome.IsFixed (transformParameters ds a operation) := by
  apply reportsWith_get_bind
  · intro c
    simp only [discardedParameters_fresh h,
      rejections_fresh (isBuiltIn_of_mem_remaining h _)]
  · intro c
    apply reportsWith_of_bind (reports_convertAll (isBuiltIn_of_mem_remaining h _) a _)
    intro converted
    apply reportsWith_of_bind (reports_ofValue _)
    intro renamed
    apply reportsWith_ite
    · exact reportsWith_pure (Outcome.isFixed_send renamed)
    · apply reportsWith_of_bind (reports_ofValue _)
      intro name
      apply reportsWith_get_bind
      · intro c
        rfl
      · intro c
        exact reportsWith_pure (Outcome.isFixed_rejected renamed _)

theorem reports_transformModel (h : ∀ d ∈ ds, d.IsBuiltIn) (a : Address) (model : Value) :
    Reports (transformModel ds a model) := by
  apply reports_get_bind
  · intro c
    simp only [discardFromModel_fresh h, rejections_fresh (isBuiltIn_of_mem_remaining h _)]
    rfl
  · intro c
    apply reports_ite
    · apply reports_bind (reports_warn _)
      intro _
      apply reports_bind (reports_convertAll (isBuiltIn_of_mem_remaining h _) a _)
      intro converted
      exact reports_ofValue _
    · apply reports_bind (reports_convertAll (isBuiltIn_of_mem_remaining h _) a _)
      intro converted
      exact reports_ofValue _

theorem reports_transformNamed {d : AttributeDescription} (h : d.IsBuiltIn) (a : Address)
    (operation value : Value) : Reports (d.transformNamed a operation value) := by
  have hsingle : ∀ other ∈ [d], other.IsBuiltIn := by
    intro other hother
    cases List.mem_singleton.mp hother
    exact h
  apply reports_get_bind
  · intro c
    simp only [discardsParameter_fresh h, rejections_fresh hsingle]
    rfl
  · intro c
    apply reports_ite
    · exact reports_pure _
    · apply reports_bind (reports_convert h a value)
      intro converted
      cases d.newName? with
      | none =>
          exact reports_pure _
      | some newName =>
          apply reports_bind (reports_ofValue _)
          intro renamed
          exact reports_pure _

theorem reportsWith_transformWrite (h : ∀ d ∈ ds, d.IsBuiltIn) (a : Address)
    (operation : Value) : ReportsWith Outcome.IsFixed (transformWrite ds a operation) := by
  apply reportsWith_of_bind (reports_ofValue _)
  intro name
  cases hfind : find? name ds with
  | none =>
      exact reportsWith_pure (Outcome.isFixed_send operation)
  | some d =>
      apply reportsWith_of_bind (reports_transformNamed (isBuiltIn_of_find? h hfind) a operation _)
      intro named
      cases named with
      | none =>
          exact reportsWith_pure Outcome.isFixed_discarded
      | some named =>
          apply reportsWith_of_bind (reports_ofValue _)
          intro written
          exact reportsWith_pure (isFixed_finish written named.rejection?)

theorem reportsWith_transformUndefine (h : ∀ d ∈ ds, d.IsBuiltIn) (a : Address)
    (operation : Value) : ReportsWith Outcome.IsFixed (transformUndefine ds a operation) := by
  apply reportsWith_of_bind (reports_ofValue _)
  intro name
  cases hfind : find? name ds with
  | none =>
      exact reportsWith_pure (Outcome.isFixed_send operation)
  | some d =>
      apply reportsWith_of_bind (reports_transformNamed (isBuiltIn_of_find? h hfind) a operation _)
      intro named
      cases named with
      | none =>
          exact reportsWith_pure Outcome.isFixed_discarded
      | some named =>
          apply reportsWith_ite
          · apply reportsWith_of_bind (reports_ofValue _)
            intro write
            apply reportsWith_of_bind (reports_ofValue _)
            intro written
            exact reportsWith_pure (isFixed_finish written named.rejection?)
          · exact reportsWith_pure (isFixed_finish named.operation named.rejection?)

end AttributeDescription

/-!
# Rules and chains of them
-/

def Rule.IsBuiltIn : Rule -> Prop
  | .parameters ds => ∀ d ∈ ds, d.IsBuiltIn
  | .write ds => ∀ d ∈ ds, d.IsBuiltIn
  | .undefine ds => ∀ d ∈ ds, d.IsBuiltIn
  | .rename _ => True

namespace Rule

theorem isBuiltIn_forOperation (name : String) {ds : List AttributeDescription}
    (h : ∀ d ∈ ds, d.IsBuiltIn) : (forOperation name ds).IsBuiltIn := by
  unfold forOperation
  split
  · exact h
  · split
    · exact h
    · exact h

theorem reportsWith_onOperation {rule : Rule} (h : rule.IsBuiltIn) (a : Address)
    (operation : Value) : ReportsWith Outcome.IsFixed (rule.onOperation a operation) := by
  cases rule with
  | parameters ds => exact AttributeDescription.reportsWith_transformParameters h a operation
  | write ds => exact AttributeDescription.reportsWith_transformWrite h a operation
  | undefine ds => exact AttributeDescription.reportsWith_transformUndefine h a operation
  | rename name =>
      apply reportsWith_of_bind (reports_ofValue _)
      intro renamed
      exact reportsWith_pure (Outcome.isFixed_send renamed)

theorem reports_onModel {rule : Rule} (h : rule.IsBuiltIn) (a : Address) (model : Value) :
    Reports (rule.onModel a model) := by
  cases rule with
  | parameters ds => exact AttributeDescription.reports_transformModel h a model
  | write ds => exact AttributeDescription.reports_transformModel h a model
  | undefine ds => exact AttributeDescription.reports_transformModel h a model
  | rename name => exact reports_pure model

theorem reportsWith_runAll {rules : List Rule} (h : ∀ rule ∈ rules, rule.IsBuiltIn) (a : Address)
    (operation : Value) :
    ReportsWith (fun ending => ∀ o ∈ ending.1, o.IsFixed) (runAll a rules operation) := by
  induction rules generalizing operation with
  | nil =>
      apply reportsWith_pure
      intro o ho
      cases ho
  | cons rule rest ih =>
      apply reportsWith_bind (reportsWith_onOperation (h rule List.mem_cons_self) a operation)
      intro outcome hfixed
      cases outcome.operation? with
      | none =>
          exact reportsWith_pure (List.forall_mem_singleton.mpr hfixed)
      | some next =>
          apply reportsWith_bind
            (ih (fun other hother => h other (List.mem_cons_of_mem rule hother)) next)
          intro ending hrest
          exact reportsWith_pure (List.forall_mem_cons.mpr ⟨hfixed, hrest⟩)

theorem reports_runAllOnModel {rules : List Rule} (h : ∀ rule ∈ rules, rule.IsBuiltIn)
    (a : Address) (model : Value) : Reports (runAllOnModel a rules model) := by
  induction rules generalizing model with
  | nil =>
      exact reports_pure model
  | cons rule rest ih =>
      apply reports_bind (reports_onModel (h rule List.mem_cons_self) a model)
      intro model
      exact ih (fun other hother => h other (List.mem_cons_of_mem rule hother)) model

end Rule

namespace Transformer

/-- Whether a transformer is none of its own, and neither are those that it consists of. -/
def IsBuiltIn : Transformer -> Prop
  | .apply _ => False
  | .chain rules none => ∀ rule ∈ rules, rule.IsBuiltIn
  | .chain rules (some last) => (∀ rule ∈ rules, rule.IsBuiltIn) ∧ last.IsBuiltIn
  | _ => True

theorem run_chain_singleton {rule : Rule} {a : Address} {operation : Value} {o : Outcome}
    {c : Context}
    (hrun : TransformM.run (rule.onOperation a operation) c.protect.2 = (.ok o, c.protect.2)) :
    TransformM.run ((chain [rule] none).run a operation) c = (.ok (Outcome.chained [o]), c) := by
  have hrules : TransformM.run (Rule.runAll a [rule] operation) c.protect.2 =
      (.ok ([o], o.operation?), c.protect.2) := by
    rw [Rule.runAll, run_bind_of_ok hrun]
    cases ho : o.operation? with
    | none => rfl
    | some next => rfl
  rw [run]
  apply run_guarded_of_silent
  rw [run_bind_of_ok hrules]
  cases o.operation? with
  | none => rfl
  | some next => rfl

theorem reportsWith_rejectOperation (detail? : Option String) (a : Address) (operation : Value) :
    ReportsWith Outcome.IsFixed (rejectOperation detail? a operation) := by
  apply reportsWith_of_bind (reports_ofValue _)
  intro name
  apply reportsWith_get_bind
  · intro c
    rfl
  · intro c
    apply reportsWith_of_bind (reports_warn _)
    intro _
    exact reportsWith_pure (Outcome.isFixed_rejected operation _)

theorem reportsWith_discardUndefinedAttributes (names : List String) (a : Address)
    (operation : Value) :
    ReportsWith Outcome.IsFixed (discardUndefinedAttributes names a operation) := by
  apply reportsWith_of_bind (reports_ofValue _)
  intro name
  apply reportsWith_get_bind
  · intro c
    rfl
  · intro c
    apply reportsWith_ite
    · apply reportsWith_of_bind (reports_ofValue _)
      intro attributeName
      apply reportsWith_ite
      · exact reportsWith_pure (Outcome.isFixed_send operation)
      · apply reportsWith_ite
        · exact reportsWith_pure Outcome.isFixed_discarded
        · exact reportsWith_pure (Outcome.isFixed_rejected operation _)
    · apply reportsWith_ite
      · apply reportsWith_ite
        · exact reportsWith_pure (Outcome.isFixed_send _)
        · exact reportsWith_pure (Outcome.isFixed_rejected _ _)
      · exact reportsWith_pure (Outcome.isFixed_send operation)

theorem reportsWith_run {transformer : Transformer} (h : transformer.IsBuiltIn) (a : Address)
    (operation : Value) : ReportsWith Outcome.IsFixed (transformer.run a operation) := by
  induction transformer, a, operation using run.induct with
  | case1 a operation => exact reportsWith_pure (Outcome.isFixed_send operation)
  | case2 a operation => exact reportsWith_pure Outcome.isFixed_discarded
  | case3 detail? a operation => exact reportsWith_rejectOperation detail? a operation
  | case4 name a operation =>
      have hrename : Rule.IsBuiltIn (.rename name) := trivial
      exact Rule.reportsWith_onOperation hrename a operation
  | case5 names a operation => exact reportsWith_discardUndefinedAttributes names a operation
  | case6 transform a operation => exact h.elim
  | case7 rules a operation =>
      rw [run]
      apply reportsWith_guarded
      apply reportsWith_bind (Rule.reportsWith_runAll h a operation)
      rintro ⟨outcomes, left?⟩ hfixed
      cases left? with
      | none =>
          exact reportsWith_pure (Outcome.isFixed_chained hfixed)
      | some left =>
          have hleft : ∀ o ∈ [Outcome.send left], o.IsFixed :=
            List.forall_mem_singleton.mpr (Outcome.isFixed_send left)
          apply reportsWith_ite
          · exact reportsWith_pure (Outcome.isFixed_chained hleft)
          · exact reportsWith_pure (Outcome.isFixed_chained hfixed)
  | case8 rules last a operation ih =>
      rw [run]
      apply reportsWith_guarded
      apply reportsWith_bind (Rule.reportsWith_runAll h.1 a operation)
      rintro ⟨outcomes, left?⟩ hfixed
      cases left? with
      | none =>
          exact reportsWith_pure (Outcome.isFixed_chained hfixed)
      | some left =>
          apply reportsWith_bind (ih left h.2)
          intro outcome hlast
          have hall : ∀ o ∈ outcomes ++ [outcome], o.IsFixed :=
            List.forall_mem_append.mpr ⟨hfixed, List.forall_mem_singleton.mpr hlast⟩
          exact reportsWith_pure (Outcome.isFixed_chained hall)

end Transformer
end MixedDomain
