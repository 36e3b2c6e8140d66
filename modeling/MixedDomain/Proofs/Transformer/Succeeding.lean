import MixedDomain.Proofs.Attribute.Converting
import MixedDomain.Proofs.Succeeding
import MixedDomain.Proofs.Transformer.Address

/-!
# Transformers that succeed

## Operations

The rules for an operation read its name and, if it writes an attribute or makes one
undefined, the name of this attribute.  All else that they do to an operation is to
remove and to set entries, which an object allows.

## Transformers

The transformers of a configuration apply rules that are made for the operation, and
then perhaps give it another name.  Such a transformer succeeds, and sends objects.
-/

namespace MixedDomain

open TransformM

/-- Whether an operation is an object of a name, and has what operations of this name need. -/
structure Operation.IsCalled (name : String) (operation : Value) : Prop where
  isObject : operation.IsObject
  name_eq : Operation.name operation = .ok name
  named : name = writeAttribute ∨ name = undefineAttribute ->
    exists n, AttributeDescription.attributeName operation = .ok n

variable {a : Address} {operation : Value} {name : String}

/-!
# What is sent
-/

def Outcome.SendsObject (o : Outcome) : Prop :=
  ∀ sent ∈ o.operation?, sent.IsObject

namespace Outcome

theorem sendsObject_discarded : discarded.SendsObject := by
  intro sent hsent
  cases hsent

theorem sendsObject_of_operation? {o : Outcome} {sent : Value} (hsent : o.operation? = some sent)
    (h : sent.IsObject) : o.SendsObject := by
  intro other hother
  rw [hsent] at hother
  cases hother
  exact h

theorem sendsObject_chained {outcomes : List Outcome} (h : ∀ o ∈ outcomes, o.SendsObject) :
    (chained outcomes).SendsObject := by
  intro sent hsent
  rcases Option.bind_eq_some_iff.mp hsent with ⟨o, hlast, hoperation⟩
  exact h o (List.mem_of_getLast? hlast) sent hoperation

end Outcome

/-!
# Rules
-/

namespace AttributeDescription

variable {d : AttributeDescription} {ds : List AttributeDescription}

theorem succeeds_transformParameters (hb : ∀ d ∈ ds, d.IsBuiltIn)
    (hname : Operation.name operation = .ok name) (h : operation.IsObject) :
    Succeeds Outcome.SendsObject (transformParameters ds a operation) := by
  apply succeeds_get_bind
  intro c
  have hreduced := eraseAll_keeps Value.takesEdits_isObject.keptByEdits h
    (discardedParameters ds a operation c)
  refine succeeds_bind (p := Value.IsObject) ?_ ?_
  · intro c'
    rcases run_convertAll_of_takesEdits Value.takesEdits_isObject (isBuiltIn_of_mem_remaining hb _)
      a c' hreduced with ⟨converted, hconverted, hobject⟩
    exact ⟨converted, c', hconverted, hobject⟩
  · intro converted hconverted
    apply succeeds_bind
      (succeeds_ofValue (renameAll_of_takesEdits Value.takesEdits_isObject ds hconverted))
    intro renamed hrenamed
    split
    · exact succeeds_pure (Outcome.sendsObject_of_operation? rfl hrenamed)
    · apply succeeds_bind (succeeds_ofValue_of_eq hname)
      intro _ _
      apply succeeds_get_bind
      intro _
      exact succeeds_pure (Outcome.sendsObject_of_operation? rfl hrenamed)

theorem succeeds_transformNamed (hb : d.IsBuiltIn) (h : operation.IsObject) (value : Value) :
    Succeeds (fun named? => ∀ named ∈ named?, named.operation.IsObject)
      (d.transformNamed a operation value) := by
  apply succeeds_get_bind
  intro c
  split
  · exact succeeds_pure nofun
  · refine succeeds_bind (p := fun _ => True) ?_ ?_
    · intro c'
      exact ⟨_, c', run_convert hb a value c', trivial⟩
    · intro converted _
      cases d.newName? with
      | none =>
          apply succeeds_pure
          rintro _ ⟨⟩
          exact h
      | some newName =>
          apply succeeds_bind (succeeds_ofValue (Value.takesEdits_isObject.set _ _ h))
          intro renamed hrenamed
          apply succeeds_pure
          rintro _ ⟨⟩
          exact hrenamed

theorem succeeds_transformWrite (hb : ∀ d ∈ ds, d.IsBuiltIn) {n : String}
    (hn : attributeName operation = .ok n) (h : operation.IsObject) :
    Succeeds Outcome.SendsObject (transformWrite ds a operation) := by
  apply succeeds_bind (succeeds_ofValue_of_eq hn)
  intro found _
  cases hfind : find? found ds with
  | none => exact succeeds_pure (Outcome.sendsObject_of_operation? rfl h)
  | some d =>
      apply succeeds_bind (succeeds_transformNamed (isBuiltIn_of_find? hb hfind) h _)
      intro named? hnamed
      cases named? with
      | none => exact succeeds_pure Outcome.sendsObject_discarded
      | some named =>
          apply succeeds_bind
            (succeeds_ofValue (Value.takesEdits_isObject.set _ _ (hnamed named rfl)))
          intro written hwritten
          exact succeeds_pure (Outcome.sendsObject_of_operation? (operation?_finish _ _) hwritten)

theorem succeeds_transformUndefine (hb : ∀ d ∈ ds, d.IsBuiltIn) {n : String}
    (hn : attributeName operation = .ok n) (h : operation.IsObject) :
    Succeeds Outcome.SendsObject (transformUndefine ds a operation) := by
  apply succeeds_bind (succeeds_ofValue_of_eq hn)
  intro found _
  cases hfind : find? found ds with
  | none => exact succeeds_pure (Outcome.sendsObject_of_operation? rfl h)
  | some d =>
      apply succeeds_bind (succeeds_transformNamed (isBuiltIn_of_find? hb hfind) h _)
      intro named? hnamed
      cases named? with
      | none => exact succeeds_pure Outcome.sendsObject_discarded
      | some named =>
          have hobject := hnamed named rfl
          dsimp only
          split
          · apply succeeds_bind (succeeds_ofValue (Value.takesEdits_isObject.set _ _ hobject))
            intro write hwrite
            apply succeeds_bind (succeeds_ofValue (Value.takesEdits_isObject.set _ _ hwrite))
            intro written hwritten
            exact succeeds_pure (Outcome.sendsObject_of_operation? (operation?_finish _ _) hwritten)
          · exact succeeds_pure (Outcome.sendsObject_of_operation? (operation?_finish _ _) hobject)

end AttributeDescription

namespace Rule

theorem succeeds_forOperation {ds : List AttributeDescription}
    (hb : (forOperation name ds).IsBuiltIn) (h : Operation.IsCalled name operation) :
    Succeeds Outcome.SendsObject ((forOperation name ds).onOperation a operation) := by
  unfold forOperation at hb ⊢
  by_cases hwrite : name = Operation.writeAttribute
  · rcases h.named (Or.inl hwrite) with ⟨n, hn⟩
    rw [if_pos hwrite] at hb ⊢
    exact AttributeDescription.succeeds_transformWrite hb hn h.isObject
  · rw [if_neg hwrite] at hb ⊢
    by_cases hundefine : name = Operation.undefineAttribute
    · rcases h.named (Or.inr hundefine) with ⟨n, hn⟩
      rw [if_pos hundefine] at hb ⊢
      exact AttributeDescription.succeeds_transformUndefine hb hn h.isObject
    · rw [if_neg hundefine] at hb ⊢
      exact AttributeDescription.succeeds_transformParameters hb h.name_eq h.isObject

theorem succeeds_rename (h : operation.IsObject) :
    Succeeds Outcome.SendsObject ((rename name).onOperation a operation) := by
  apply succeeds_bind (succeeds_ofValue (Value.takesEdits_isObject.set _ _ h))
  intro renamed hrenamed
  exact succeeds_pure (Outcome.sendsObject_of_operation? rfl hrenamed)

/-- Whether the outcomes of rules send objects, and what is left is one. -/
def EndsWithObjects (ending : List Outcome × Option Value) : Prop :=
  (∀ o ∈ ending.1, o.SendsObject) ∧ ∀ left ∈ ending.2, left.IsObject

theorem succeeds_runAll_nil (h : operation.IsObject) :
    Succeeds EndsWithObjects (runAll a [] operation) := by
  apply succeeds_pure
  constructor
  · exact nofun
  · rintro _ ⟨⟩
    exact h

theorem succeeds_runAll_cons {rule : Rule} {rest : List Rule}
    (hrule : Succeeds Outcome.SendsObject (rule.onOperation a operation))
    (hrest : forall next, next.IsObject -> Succeeds EndsWithObjects (runAll a rest next)) :
    Succeeds EndsWithObjects (runAll a (rule :: rest) operation) := by
  apply succeeds_bind hrule
  intro outcome houtcome
  cases hoperation : outcome.operation? with
  | none =>
      apply succeeds_pure
      exact ⟨List.forall_mem_singleton.mpr houtcome, nofun⟩
  | some next =>
      apply succeeds_bind (hrest next (houtcome next hoperation))
      rintro ⟨outcomes, left?⟩ ⟨houtcomes, hleft⟩
      apply succeeds_pure
      exact ⟨List.forall_mem_cons.mpr ⟨houtcome, houtcomes⟩, hleft⟩

end Rule

/-!
# Transformers
-/

namespace Transformer

/-- Whether a transformer is one that declarations make for an operation of a name, and no attribute
is called as the address. -/
inductive Suits (name : String) : Transformer -> Prop where
  | pass : Suits name .pass
  | discard : Suits name .discard
  | reject (detail? : Option String) : Suits name (.reject detail?)
  | rules {ds : List AttributeDescription} (newName? : Option String) :
      (∀ d ∈ ds, d.Spares [Operation.addressKey]) ->
      Suits name (.chain (Rule.forOperation name ds :: (newName?.map Rule.rename).toList) none)

variable {transformer : Transformer}

theorem Suits.sparesAddress (h : transformer.Suits name) : transformer.SparesAddress := by
  cases h with
  | pass => exact trivial
  | discard => exact trivial
  | reject detail? => exact trivial
  | rules newName? hspares =>
      refine List.forall_mem_cons.mpr ⟨?_, ?_⟩
      · unfold Rule.forOperation
        split
        · exact trivial
        · split
          · exact trivial
          · exact hspares
      · intro rule hrule
        simp only [Option.mem_toList, Option.map_eq_some_iff] at hrule
        rcases hrule with ⟨newName, _, rfl⟩
        exact trivial

theorem succeeds_rejectOperation (detail? : Option String) (h : Operation.IsCalled name operation) :
    Succeeds Outcome.SendsObject (rejectOperation detail? a operation) := by
  apply succeeds_bind (succeeds_ofValue_of_eq h.name_eq)
  intro _ _
  apply succeeds_get_bind
  intro c
  apply succeeds_bind (succeeds_warn _)
  intro _ _
  exact succeeds_pure (Outcome.sendsObject_of_operation? rfl h.isObject)

theorem Suits.succeeds_run (hb : transformer.IsBuiltIn) (hsuits : transformer.Suits name)
    (h : Operation.IsCalled name operation) :
    Succeeds Outcome.SendsObject (transformer.run a operation) := by
  cases hsuits with
  | pass => exact succeeds_pure (Outcome.sendsObject_of_operation? rfl h.isObject)
  | discard => exact succeeds_pure Outcome.sendsObject_discarded
  | reject detail? => exact succeeds_rejectOperation detail? h
  | @rules ds newName? _ =>
      have hrenames : forall next : Value, next.IsObject -> Succeeds Rule.EndsWithObjects
          (Rule.runAll a (newName?.map Rule.rename).toList next) := by
        intro next hnext
        cases newName? with
        | none => exact Rule.succeeds_runAll_nil hnext
        | some newName =>
            exact Rule.succeeds_runAll_cons (Rule.succeeds_rename hnext)
              fun _ hlast => Rule.succeeds_runAll_nil hlast
      have hrule := Rule.succeeds_forOperation (a := a) (hb _ List.mem_cons_self) h
      rw [run]
      apply succeeds_guarded
      apply succeeds_bind (Rule.succeeds_runAll_cons hrule hrenames)
      rintro ⟨outcomes, left?⟩ ⟨houtcomes, hleft⟩
      cases left? with
      | none => exact succeeds_pure (Outcome.sendsObject_chained houtcomes)
      | some left =>
          dsimp only
          split
          · apply succeeds_pure
            apply Outcome.sendsObject_chained
            exact List.forall_mem_singleton.mpr
              (Outcome.sendsObject_of_operation? rfl (hleft left rfl))
          · exact succeeds_pure (Outcome.sendsObject_chained houtcomes)

end Transformer
end MixedDomain
