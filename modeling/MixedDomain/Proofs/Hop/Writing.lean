import MixedDomain.Proofs.Attribute.Writing
import MixedDomain.Proofs.Config.BuiltIn
import MixedDomain.Proofs.Hop.Address

/-!
# Descriptions that leave operations to attributes

## Transformers

A description about whose operations nothing is declared applies one rule to each
of the operations that set attributes.

## The ways to set an attribute

Writing an attribute and making it undefined then do to the target what adding the
resource with this attribute alone does.
-/

namespace MixedDomain

open TransformM

namespace ResourceDescription

def LeavesOperations (d : ResourceDescription) : Prop :=
  d.operations = ResourceDeclarations.transformers d.attributes [] [] []

theorem transformerOf_of_leavesOperations {d : ResourceDescription} (h : d.LeavesOperations)
    {name : String} (hname : name ∈ ResourceDeclarations.attributeOperations) :
    d.transformerOf name = .chain [Rule.forOperation name d.attributes] none := by
  rw [transformerOf, h]
  simp only [ResourceDeclarations.attributeOperations, List.mem_cons, List.not_mem_nil,
    or_false] at hname
  rcases hname with rfl | rfl | rfl
  · rfl
  · rfl
  · rfl

end ResourceDescription

/-!
# Outcomes that agree
-/

/-- Whether writing an attribute does what adding the resource with this attribute alone does: it is
discarded if adding drops the attribute, sends the value that is added under the name that the
attribute has there, and is rejected if adding is rejected because of the attribute. -/
structure Outcome.WritesAsAdded (a : Address) (name newName : String) (added : Value)
    (found : Rejections) (writing : Outcome) : Prop where
  discarded : writing.operation? = none ↔ added.get? newName = none
  sent : ∀ written ∈ writing.operation?,
    written = Operation.writing a newName (added.getOrUndefined newName)
  rejected : forall result, (writing.verdict? result).isSome ↔ found.Concerns name

/-- Whether making an attribute undefined does what writing an undefined value does: it is discarded
and rejected with the same details, and the attribute is written if the converted value is defined,
and else made undefined under the new name. -/
structure Outcome.UndefinesAsWritten (t : Target) (a : Address) (newName : String)
    (undefining writing : Outcome) : Prop where
  discarded : undefining.operation? = none ↔ writing.operation? = none
  sent : ∀ written ∈ writing.operation?, ∃ value, written = Operation.writing a newName value ∧
    undefining.operation? = some (if value.isDefined then Operation.writing a newName value
      else Operation.undefining a newName)
  rejected : exists details? : Option String, forall result,
    writing.verdict? result = details?.map (fun details =>
      some (rejectedAttributesMessage t a Operation.writeAttribute details)) ∧
    undefining.verdict? result = details?.map (fun details =>
      some (rejectedAttributesMessage t a Operation.undefineAttribute details))

namespace AttributeDescription

variable {d : AttributeDescription} {ds : List AttributeDescription} {a : Address} {c : Context}
  {v : Value}

theorem writesAsAdded (hnames : (ds.map name).Nodup) (hd : d ∈ ds) {added : Value}
    (hdiscards : d.discardsParameter a v (Operation.adding a d.name v) c =
      d.discardsAttribute a v c)
    (hadded : added.get? (nameOnTarget ds d.name) =
      if d.discardsAttribute a v c then none else some (d.converted a v c)) :
    Outcome.WritesAsAdded a d.name (nameOnTarget ds d.name) added
      (parameterRejections ds a (Operation.adding a d.name v) c)
      (.chained [d.namedOutcome a Operation.writeAttribute v c
        (Operation.writing a (nameOnTarget ds d.name) (d.converted a v c))]) := by
  have hvalue : (Operation.adding a d.name v).getOrUndefined d.name = v := by
    rw [Value.getOrUndefined, get?_adding_self]
    rfl
  constructor
  case discarded =>
    rw [Outcome.chained, List.getLast?_singleton, Option.bind_some, operation?_namedOutcome, hadded]
    cases d.discardsAttribute a v c <;> simp
  case sent =>
    intro written hwritten
    rw [Outcome.chained, List.getLast?_singleton, Option.bind_some, operation?_namedOutcome]
      at hwritten
    rw [Value.getOrUndefined, hadded]
    split at hwritten
    · cases hwritten
    · cases hwritten
      rename_i hkept
      rw [if_neg hkept]
      rfl
  case rejected =>
    intro result
    rw [Outcome.verdict?_chained_singleton (isFixed_namedOutcome d a _ v c _),
      description?_namedOutcome, concerns_parameterRejections hnames hd, hvalue, hdiscards,
      Option.isSome_map, Option.isSome_map, namedDetails?]
    split
    · simp [*]
    · simp [Rejections.isSome_details?, namedRejections_eq_nil_iff, *]

theorem undefinesAsWritten (ds : List AttributeDescription) (d : AttributeDescription) (a : Address)
    (c : Context) :
    Outcome.UndefinesAsWritten c.target a (nameOnTarget ds d.name)
      (.chained [d.namedOutcome a Operation.undefineAttribute .undefined c
        (if (d.converted a .undefined c).isDefined then
          Operation.writing a (nameOnTarget ds d.name) (d.converted a .undefined c)
        else Operation.undefining a (nameOnTarget ds d.name))])
      (.chained [d.namedOutcome a Operation.writeAttribute .undefined c
        (Operation.writing a (nameOnTarget ds d.name) (d.converted a .undefined c))]) := by
  constructor
  case discarded =>
    simp only [Outcome.chained, List.getLast?_singleton, Option.bind_some, operation?_namedOutcome]
    cases d.discardsAttribute a .undefined c <;> simp
  case sent =>
    intro written hwritten
    simp only [Outcome.chained, List.getLast?_singleton, Option.bind_some, operation?_namedOutcome]
      at hwritten ⊢
    split at hwritten
    · cases hwritten
    · cases hwritten
      rename_i hkept
      exact ⟨_, rfl, if_neg hkept⟩
  case rejected =>
    refine ⟨d.namedDetails? a .undefined c, fun result => ?_⟩
    rw [Outcome.verdict?_chained_singleton (isFixed_namedOutcome d a _ _ c _),
      Outcome.verdict?_chained_singleton (isFixed_namedOutcome d a _ _ c _),
      description?_namedOutcome, description?_namedOutcome, Option.map_map, Option.map_map]
    exact ⟨rfl, rfl⟩

end AttributeDescription

/-!
# The ways to set an attribute
-/

/-- For every description of a registered hop that leaves operations to attributes, whose new names
are apart, every declared attribute, every value, and every context that registers no parameter of
`add` for the attribute: writing the attribute does what adding the resource with it alone does, and
making it undefined does what writing an undefined value does. -/
theorem Hop.setting_operations_agree {config : Config} {registry : Registry}
    (hregistry : config.registry = .ok registry) {h : Hop} (hholds : registry.Holds h)
    {x : Address} {d : ResourceDescription} (hd : h.description? x = some d)
    (hoperations : d.LeavesOperations)
    (hrenames : AttributeDescription.RenamesApart [Operation.nameKey, Operation.addressKey]
      d.attributes)
    {name : String} (hname : name ∈ d.attributes.map AttributeDescription.name) {a : Address}
    {c : Context}
    (hparameter : ∀ registration ∈ c.registrationFromRoot? a,
      (registration.operation? Operation.add).bind (OperationDefinition.parameter? name) = none)
    {v : Value}
    (hadd : (Operation.adding a name v).get? Operation.nameKey = some (.string Operation.add)) :
    let newName := AttributeDescription.nameOnTarget d.attributes name
    let found := AttributeDescription.parameterRejections d.attributes a
      (Operation.adding a name v) c
    exists adding added writing unsetting undefining,
      run ((d.transformerOf Operation.add).run a (Operation.adding a name v)) c =
        (.ok adding, c) ∧
      run ((d.transformerOf Operation.writeAttribute).run a (Operation.writing a name v)) c =
        (.ok writing, c) ∧
      run ((d.transformerOf Operation.writeAttribute).run a (Operation.writing a name .undefined))
        c = (.ok unsetting, c) ∧
      run ((d.transformerOf Operation.undefineAttribute).run a (Operation.undefining a name)) c =
        (.ok undefining, c) ∧
      adding.operation? = some added ∧
      (forall result, adding.verdict? result = found.details?.map fun details =>
        some (rejectedAttributesMessage c.target a Operation.add details)) ∧
      writing.WritesAsAdded a name newName added found ∧
      undefining.UndefinesAsWritten c.target a newName unsetting := by
  intro newName found
  have hb := (Config.isBuiltIn_registry hregistry).of_holds hholds
  have hbuilt := Hop.isBuiltIn_of_description? hb (Hop.ne_nil_of_description? hb hd) hd
  rcases List.mem_map.mp hname with ⟨described, hmem, rfl⟩
  have hrule : ∀ n ∈ ResourceDeclarations.attributeOperations,
      d.transformerOf n = .chain [Rule.forOperation n d.attributes] none :=
    fun _ hn => ResourceDescription.transformerOf_of_leavesOperations hoperations hn
  have hprotected : AttributeDescription.parameterRejections d.attributes a
      (Operation.adding a described.name v) c.protect.2 = found :=
    (AttributeDescription.parameterRejections_fresh hbuilt.attributes a _ c.protect.2).symm.trans
      (AttributeDescription.parameterRejections_fresh hbuilt.attributes a _ c)
  rcases AttributeDescription.run_transformParameters_adding (c := c.protect.2) hbuilt.attributes
    hbuilt.distinct hrenames hmem hadd hparameter with ⟨added, hadding, hadded⟩
  have hwriting := fun v => AttributeDescription.run_transformWrite hbuilt.attributes
    hbuilt.distinct hmem a v c.protect.2
  have hundefining := AttributeDescription.run_transformUndefine hbuilt.attributes
    hbuilt.distinct hmem a c.protect.2
  rw [hrule Operation.add (by decide), hrule Operation.writeAttribute (by decide),
    hrule Operation.undefineAttribute (by decide)]
  refine ⟨_, added, _, _, _, Transformer.run_chain_singleton hadding,
    Transformer.run_chain_singleton (hwriting v), Transformer.run_chain_singleton (hwriting _),
    Transformer.run_chain_singleton hundefining, AttributeDescription.operation?_finish _ _, ?_, ?_,
    AttributeDescription.undefinesAsWritten d.attributes described a c.protect.2⟩
  · intro result
    rw [Outcome.verdict?_chained_singleton (AttributeDescription.isFixed_finish _ _),
      AttributeDescription.description?_finish, Option.map_map, hprotected]
    rfl
  · have htext : ((Operation.adding a described.name v).get? Operation.nameKey).bind Value.text? =
        some Operation.add := by
      rw [hadd]
      rfl
    rw [← hprotected]
    exact AttributeDescription.writesAsAdded hbuilt.distinct hmem
      (AttributeDescription.discardsParameter_of_add (c := c.protect.2) htext hparameter v) hadded

/-!
# Encryption that cannot be switched off

The target encrypts always, under another name, and wants this to be said.
-/

namespace MailEncryption

def mail : Address :=
  [Address.subsystemElement "mail"]

def config : Config :=
  { target? := none
    registrations := []
    subsystems := [
      { name := "mail"
        versions := [
          { version := ⟨1, 0, 0⟩
            resource := .node
              [⟨["tls"], none, [], [.undefined], [], false, some (.boolean true), some "secure"⟩]
              [] [] [] [] [] }]
        chain? := none }] }

def registry : Registry :=
  match config.registry with
  | .ok r => r
  | .error _ => Registry.empty

/-- The only hop. -/
def hop : Hop :=
  match registry.hopsTo? "mail" ⟨1, 0, 0⟩ with
  | some [only] => only
  | _ => ⟨"", Trie.empty⟩

def described : ResourceDescription :=
  match hop.description? mail with
  | some d => d
  | none => ⟨Address.subsystemElement "", .fixed .never, none, [], [], none⟩

/-- The context at the beginning, in which no resource type is registered. -/
def context : Context :=
  Context.start ⟨"legacy-host", ⟨1, 4, 0⟩, [("mail", ⟨1, 0, 0⟩)], .host⟩
    (config.model Resource.empty)

end MailEncryption

open MailEncryption in
theorem Hop.setting_operations_agree_tls :
    hop.description? mail = some described ∧ described.LeavesOperations ∧
    AttributeDescription.RenamesApart [Operation.nameKey, Operation.addressKey]
      described.attributes ∧
    exists adding writing undefining,
      run ((described.transformerOf Operation.add).run mail
        (Operation.adding mail "tls" (.boolean false))) context = (.ok adding, context) ∧
      adding.operation? = some (Operation.adding mail "secure" (.boolean true)) ∧
      run ((described.transformerOf Operation.writeAttribute).run mail
        (Operation.writing mail "tls" (.boolean false))) context = (.ok writing, context) ∧
      writing.operation? = some (Operation.writing mail "secure" (.boolean true)) ∧
      run ((described.transformerOf Operation.undefineAttribute).run mail
        (Operation.undefining mail "tls")) context = (.ok undefining, context) ∧
      undefining.operation? = some (Operation.writing mail "secure" (.boolean true)) ∧
      forall result, adding.verdict? result = none ∧ writing.verdict? result = none ∧
        (undefining.verdict? result).isSome := by
  have hregistry : config.registry = .ok registry := by
    rfl
  have hholds : registry.Holds hop :=
    ⟨"mail", ⟨1, 0, 0⟩, [hop], rfl, List.mem_singleton_self hop⟩
  have hdescribed : hop.description? mail = some described := by
    rfl
  have hoperations : described.LeavesOperations := by
    rfl
  have hrenames : AttributeDescription.RenamesApart [Operation.nameKey, Operation.addressKey]
      described.attributes := by
    constructor <;> decide
  have hunknown : context.registrationFromRoot? mail = none := by
    rfl
  have hparameter : ∀ registration ∈ context.registrationFromRoot? mail,
      (registration.operation? Operation.add).bind (OperationDefinition.parameter? "tls") =
        none := by
    rw [hunknown]
    exact fun _ hmem => nomatch hmem
  rcases setting_operations_agree (v := .boolean false) hregistry hholds hdescribed hoperations
      hrenames (List.mem_singleton_self "tls") hparameter rfl with
    ⟨adding, added, writing, unsetting, undefining, hadding, hwriting, hunsetting, hundefining,
      hadded, hverdict, hwrites, hundefines⟩
  have hsent : adding.operation? = some (Operation.adding mail "secure" (.boolean true)) ∧
      writing.operation? = some (Operation.writing mail "secure" (.boolean true)) ∧
      undefining.operation? = some (Operation.writing mail "secure" (.boolean true)) ∧
      (undefining.verdict? .undefined).isSome := by
    cases hadding
    cases hwriting
    cases hundefining
    exact ⟨rfl, rfl, rfl, rfl⟩
  refine ⟨hdescribed, hoperations, hrenames, adding, writing, undefining, hadding, hsent.1,
    hwriting, hsent.2.1, hundefining, hsent.2.2.1, fun result => ⟨hverdict result, ?_, ?_⟩⟩
  · have hfree : ¬ (writing.verdict? result).isSome := by
      rw [hwrites.rejected]
      exact fun ⟨_, hmem, _⟩ => nomatch hmem
    simpa using hfree
  · rcases hundefines.rejected with ⟨details?, hdetails⟩
    have hsome := hsent.2.2.2
    rw [(hdetails .undefined).2, Option.isSome_map] at hsome
    rw [(hdetails result).2, Option.isSome_map]
    exact hsome

end MixedDomain
