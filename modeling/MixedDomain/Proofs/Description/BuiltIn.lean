import MixedDomain.Proofs.Description.Declaring
import MixedDomain.Proofs.Transformer.BuiltIn

/-!
# Built-in descriptions of resources

## Descriptions

A description is built-in when it withholds all resources in the same way,
redirects to elements only, has one description for each attribute, and consists of
built-in policies, transformers and placements.

## From declarations to descriptions

Declarations that name only what configurations can name are described by trees
all of whose nodes are built-in.
-/

namespace MixedDomain

def Placement.IsBuiltIn : Placement -> Prop
  | .apply _ => False
  | _ => True

/-- Whether a description is one that configurations can declare. -/
structure ResourceDescription.IsBuiltIn (d : ResourceDescription) : Prop where
  withholding : exists w, d.withholding = .fixed w
  redirection : ∀ redirection ∈ d.redirection?, exists e, redirection = .element e
  attributes : ∀ declared ∈ d.attributes, declared.IsBuiltIn
  distinct : (d.attributes.map AttributeDescription.name).Nodup
  operations : ∀ entry ∈ d.operations, entry.2.IsBuiltIn
  placement : ∀ placement ∈ d.placement?, placement.IsBuiltIn

namespace ResourceDescription

variable {d : ResourceDescription}

theorem isBuiltIn_transformerOf (h : d.IsBuiltIn) (operation : String) :
    (d.transformerOf operation).IsBuiltIn := by
  unfold transformerOf
  cases hget : Entries.get? operation d.operations with
  | none => exact trivial
  | some transformer => exact h.operations (operation, transformer) (Entries.mem_of_get? hget)

theorem isBuiltIn_placement (h : d.IsBuiltIn) : (d.placement?.getD .plain).IsBuiltIn := by
  cases hplacement : d.placement? with
  | none => exact trivial
  | some placement => exact h.placement placement hplacement

theorem reports_transformModel (h : d.IsBuiltIn) (a : Address) (model : Value) :
    TransformM.Reports (d.transformModel a model) := by
  apply TransformM.reports_guarded
  apply Rule.reports_runAllOnModel
  intro rule hrule
  cases List.mem_singleton.mp hrule
  exact h.attributes

end ResourceDescription

/-!
# Declarations of operations
-/

/-- Whether all that is declared about an operation has a name. -/
structure OperationDeclarations.IsBuiltIn (o : OperationDeclarations) : Prop where
  attributes : o.attributes.IsBuiltIn
  last : ∀ last ∈ o.last?, last.IsBuiltIn

theorem OperationDeclarations.isBuiltIn_rules {o : OperationDeclarations} (h : o.IsBuiltIn)
    {resource : List AttributeDescription} (hresource : ∀ d ∈ resource, d.IsBuiltIn) :
    ∀ rule ∈ o.rules resource, rule.IsBuiltIn := by
  intro rule hrule
  rcases List.mem_cons.mp hrule with rfl | hrename
  · apply Rule.isBuiltIn_forOperation
    have hown := AttributeDeclarations.isBuiltIn_describe h.attributes
    split
    · exact AttributeDescription.forall_mem_merge hresource hown
    · exact hown
  · simp only [Option.mem_toList, Option.map_eq_some_iff] at hrename
    rcases hrename with ⟨name, _, rfl⟩
    exact trivial

theorem OperationDeclarations.isBuiltIn_transformer {o : OperationDeclarations} (h : o.IsBuiltIn)
    {resource : List AttributeDescription} (hresource : ∀ d ∈ resource, d.IsBuiltIn) :
    (o.transformer resource).IsBuiltIn := by
  unfold transformer
  cases o.withholding with
  | never =>
      cases hlast : o.last? with
      | none => exact isBuiltIn_rules h hresource
      | some last => exact ⟨isBuiltIn_rules h hresource, h.last last hlast⟩
  | silent => exact trivial
  | rejectAndWarn => exact trivial

/-!
# Declarations of resources
-/

namespace ResourceDeclarations

/-- Whether all that is declared about a resource itself has a name. -/
structure OwnIsBuiltIn (d : ResourceDeclarations) : Prop where
  withholding : exists w, d.withholding = .fixed w
  redirection : ∀ redirection ∈ d.redirection?, exists e, redirection = .element e
  attributes : d.attributes.IsBuiltIn
  overrides : ∀ o ∈ d.overrides, o.IsBuiltIn
  placement : ∀ placement ∈ d.placement?, placement.IsBuiltIn

theorem ownIsBuiltIn_start (parent : Address) (e : PathElement) (w : Withholding)
    {redirection? : Option Redirection}
    (h : ∀ redirection ∈ redirection?, exists e, redirection = .element e) :
    (start parent e (.fixed w) redirection?).OwnIsBuiltIn where
  withholding := ⟨w, rfl⟩
  redirection := h
  attributes := AttributeDeclarations.isBuiltIn_empty _
  overrides := fun _ hmem => nomatch hmem
  placement := fun _ hmem => nomatch hmem

/-!
# Trees of descriptions
-/

theorem isBuiltIn_of_mem_transformers {attributes : List AttributeDescription}
    {overrides : List OperationDeclarations} (hattributes : ∀ d ∈ attributes, d.IsBuiltIn)
    (hoverrides : ∀ o ∈ overrides, o.IsBuiltIn) (discarded rejected : List String) :
    ∀ entry ∈ transformers attributes overrides discarded rejected, entry.2.IsBuiltIn := by
  intro entry hentry
  have hmem := Entries.mem_ofList hentry
  simp only [List.mem_append, List.mem_map] at hmem
  rcases hmem with ((⟨name, _, rfl⟩ | ⟨name, _, rfl⟩) | ⟨name, _, rfl⟩) | ⟨o, ho, rfl⟩
  · intro rule hrule
    cases List.mem_singleton.mp hrule
    exact Rule.isBuiltIn_forOperation name hattributes
  · exact trivial
  · exact trivial
  · exact OperationDeclarations.isBuiltIn_transformer (hoverrides o ho) hattributes

theorem isBuiltIn_describe {d : ResourceDeclarations} (h : d.OwnIsBuiltIn) :
    d.describe.description.IsBuiltIn := by
  rcases d with ⟨element, path, withholding, redirection?, attributes, overrides, discarded,
    rejected, placement?, children⟩
  have hattributes := AttributeDeclarations.isBuiltIn_describe h.attributes
  exact
    { withholding := h.withholding
      redirection := h.redirection
      attributes := hattributes
      distinct := AttributeDeclarations.nodup_describe h.attributes.distinct h.attributes.named
      operations := isBuiltIn_of_mem_transformers hattributes h.overrides _ _
      placement := h.placement }

theorem isBuiltIn_of_mem_flatten {d : ResourceDeclarations} (h : d.Everywhere OwnIsBuiltIn)
    (parent : Address) : ∀ node ∈ d.describe.flatten parent, node.2.IsBuiltIn := by
  intro node hnode
  rcases exists_of_mem_flatten h parent node hnode with ⟨own, hown, heq⟩
  rw [heq]
  exact isBuiltIn_describe hown

end ResourceDeclarations
end MixedDomain
