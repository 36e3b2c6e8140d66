import MixedDomain.Proofs.Attribute.Adding
import MixedDomain.Proofs.Config.BuiltIn

/-!
# Configurations that leave adding to attributes

## Declarations

Declarations keep every description under the name of its attribute, and give it a
new name only if a rule says so.  When no rule mentions the operation that adds the
resource, its transformer is the one for attributes.

## Adding a resource

Such a description sends with the operation what it makes of the model, and rejects
the operation exactly when it warns of the resource.
-/

namespace MixedDomain

open TransformM

theorem Entries.get?_ofList_append {item : Type} {key : String} (first : List (String × item))
    {second : List (String × item)} (h : key ∉ Entries.keys second) :
    Entries.get? key (Entries.ofList (first ++ second)) =
      Entries.get? key (Entries.ofList first) := by
  unfold Entries.ofList
  rw [List.foldl_append]
  apply List.foldlRecOn (motive := fun entries => Entries.get? key entries =
    Entries.get? key (first.foldl (fun entries pair => Entries.insert pair.1 pair.2 entries) []))
  · rfl
  · intro entries hentries pair hpair
    have hne : key ≠ pair.1 := by
      rintro rfl
      exact h (List.mem_map_of_mem hpair)
    rw [Entries.get?_insert_of_ne hne, hentries]

/-!
# Declarations of attributes
-/

namespace AttributeDeclarations

variable {reserved : List String} {ds : AttributeDeclarations}

/-- Whether every description stands under its own name, and no name is reserved. -/
structure WellNamed (reserved : List String) (ds : AttributeDeclarations) : Prop where
  distinct : Entries.Distinct ds.declared
  named : ∀ entry ∈ ds.declared, entry.2.description.name = entry.1
  spares : ∀ entry ∈ ds.declared, entry.2.description.Spares reserved

theorem wellNamed_empty (reserved : List String) (path : String) :
    (empty path).WellNamed reserved := by
  constructor
  · exact List.nodup_nil
  · exact fun _ hmem => nomatch hmem
  · exact fun _ hmem => nomatch hmem

theorem wellNamed_describeAll (h : ds.WellNamed reserved) {names : List String}
    (hnames : ∀ name ∈ names, name ∉ reserved) {f : AttributeDescription -> AttributeDescription}
    (hname : forall d, (f d).name = d.name)
    (hspares : forall d, d.Spares reserved -> (f d).Spares reserved) :
    (ds.describeAll names f).WellNamed reserved := by
  apply List.foldlRecOn (motive := WellNamed reserved)
  · exact h
  · intro ds hds name hmem
    have hold : ((Entries.get? name ds.declared).getD
        (AttributeDeclaration.ofName name)).description.name = name ∧
        ((Entries.get? name ds.declared).getD
          (AttributeDeclaration.ofName name)).description.Spares reserved := by
      cases hget : Entries.get? name ds.declared with
      | none => exact ⟨rfl, hnames name hmem, nofun⟩
      | some found =>
          have hfound := Entries.mem_of_get? hget
          exact ⟨hds.named _ hfound, hds.spares _ hfound⟩
    constructor
    · exact Entries.distinct_insert _ hds.distinct
    · intro entry hentry
      rcases Entries.mem_insert hentry with rfl | hmem
      · exact (hname _).trans hold.1
      · exact hds.named entry hmem
    · intro entry hentry
      rcases Entries.mem_insert hentry with rfl | hmem
      · exact hspares _ hold.2
      · exact hds.spares entry hmem

/-- What is said about attributes without a word on names keeps declarations well named. -/
theorem wellNamed_foldl_describeAll {choice : Type} {choices : List choice}
    {f : choice -> AttributeDescription -> AttributeDescription} (h : ds.WellNamed reserved)
    {names : List String} (hnames : ∀ name ∈ names, name ∉ reserved)
    (hname : forall x d, (f x d).name = d.name)
    (hnewName : forall x d, (f x d).newName? = d.newName?) :
    (choices.foldl (fun ds x => ds.describeAll names (f x)) ds).WellNamed reserved := by
  apply List.foldlRecOn (motive := WellNamed reserved)
  · exact h
  · intro ds hds x _
    apply wellNamed_describeAll hds hnames (hname x)
    intro d hspares
    exact ⟨hname x d ▸ hspares.name, hnewName x d ▸ hspares.newName⟩

theorem WellNamed.nodup_describe (h : ds.WellNamed reserved) :
    (ds.describe.map AttributeDescription.name).Nodup :=
  AttributeDeclarations.nodup_describe h.distinct h.named

theorem WellNamed.spares_describe (h : ds.WellNamed reserved) :
    ∀ d ∈ ds.describe, d.Spares reserved := by
  intro d hd
  rcases List.mem_map.mp hd with ⟨entry, hentry, rfl⟩
  have hspares := h.spares entry hentry
  unfold AttributeDeclaration.describe
  split
  · exact hspares
  · exact ⟨hspares.name, hspares.newName⟩

end AttributeDeclarations

namespace Config

/-- Whether neither the attributes that a rule is about nor their new name are reserved. -/
structure AttributeRule.Spares (reserved : List String) (rule : AttributeRule) : Prop where
  names : ∀ name ∈ rule.names, name ∉ reserved
  newName : ∀ newName ∈ rule.newName?, newName ∉ reserved

theorem AttributeRule.wellNamed_declare {reserved : List String} {rule : AttributeRule}
    (hrule : rule.Spares reserved) {ds ds' : AttributeDeclarations} (hds : ds.WellNamed reserved)
    (h : rule.declare ds = .ok ds') : ds'.WellNamed reserved := by
  unfold declare at h
  extract_lets discarding rejecting converting at h
  have hdiscarding : discarding.WellNamed reserved :=
    AttributeDeclarations.wellNamed_foldl_describeAll hds hrule.names
      (fun _ _ => rfl) (fun _ _ => rfl)
  have hrejecting : rejecting.WellNamed reserved :=
    AttributeDeclarations.wellNamed_foldl_describeAll hdiscarding hrule.names
      (fun _ _ => rfl) (fun _ _ => rfl)
  have hconverting : converting.WellNamed reserved :=
    AttributeDeclarations.wellNamed_foldl_describeAll hrejecting hrule.names
      (fun _ _ => rfl) (fun _ _ => rfl)
  unfold declareName at h
  split at h
  · rw [← Except.ok.inj h]
    exact hconverting
  · rename_i newName name hnew hnames
    unfold AttributeDeclarations.rename at h
    split at h
    · cases h
    · cases h
      refine AttributeDeclarations.wellNamed_describeAll hconverting (hnames ▸ hrule.names)
        (fun _ => rfl) ?_
      intro d hspares
      refine ⟨hspares.name, ?_⟩
      rintro _ ⟨⟩
      exact hrule.newName newName hnew
  · cases h

theorem AttributeRule.wellNamed_declareAll {reserved : List String} {rules : List AttributeRule}
    (hrules : ∀ rule ∈ rules, rule.Spares reserved) {ds ds' : AttributeDeclarations}
    (hds : ds.WellNamed reserved) (h : declareAll rules ds = .ok ds') : ds'.WellNamed reserved :=
  Except.foldlM_keeps
    (fun rule hmem _ _ hs hdeclare => wellNamed_declare (hrules rule hmem) hs hdeclare) hds h

end Config

/-!
# Declarations of resources
-/

namespace ResourceDeclarations

/-- Whether adding the resource is left to the rules for attributes, none of which has a reserved
name. -/
structure AddsByAttributes (reserved : List String) (d : ResourceDeclarations) : Prop where
  builtIn : d.attributes.IsBuiltIn
  wellNamed : d.attributes.WellNamed reserved
  discarded : Operation.add ∉ d.discarded
  rejected : Operation.add ∉ d.rejected
  overrides : ∀ o ∈ d.overrides, o.operation ≠ Operation.add

theorem addsByAttributes_start (reserved : List String) (parent : Address) (e : PathElement)
    (withholding : WithholdingPolicy) (redirection? : Option Redirection) :
    (start parent e withholding redirection?).AddsByAttributes reserved where
  builtIn := AttributeDeclarations.isBuiltIn_empty _
  wellNamed := AttributeDeclarations.wellNamed_empty reserved _
  discarded := List.not_mem_nil
  rejected := List.not_mem_nil
  overrides := fun _ hmem => nomatch hmem

theorem attributes_describe (d : ResourceDeclarations) :
    d.describe.description.attributes = d.attributes.describe := by
  rcases d
  rfl

theorem transformerOf_add {reserved : List String} {d : ResourceDeclarations}
    (h : d.AddsByAttributes reserved) :
    d.describe.description.transformerOf Operation.add =
      .chain [.parameters d.describe.description.attributes] none := by
  have hoperations : d.describe.description.operations =
      transformers d.attributes.describe d.overrides d.discarded d.rejected := by
    rcases d
    rfl
  have hfree : Operation.add ∉ Entries.keys
      ((d.discarded.map fun name => (name, Transformer.discard))
        ++ ((d.rejected.map fun name => (name, Transformer.reject none))
        ++ (d.overrides.map fun o => (o.operation, o.transformer d.attributes.describe)))) := by
    intro hmem
    simp only [Entries.keys, List.map_append, List.mem_append, List.map_map] at hmem
    rcases hmem with hdiscarded | hrejected | hoverride
    · rcases List.mem_map.mp hdiscarded with ⟨name, hname, rfl⟩
      exact h.discarded hname
    · rcases List.mem_map.mp hrejected with ⟨name, hname, rfl⟩
      exact h.rejected hname
    · rcases List.mem_map.mp hoverride with ⟨o, ho, hname⟩
      exact h.overrides o ho hname
  rw [ResourceDescription.transformerOf, hoperations, transformers, List.append_assoc,
    List.append_assoc, Entries.get?_ofList_append _ hfree, attributes_describe]
  rfl

end ResourceDeclarations

namespace Config

/-- Whether rules neither discard, reject nor override `add`, and no attribute has a reserved
name. -/
structure ResourceRules.AddsByAttributes (reserved : List String) (rules : ResourceRules) :
    Prop where
  attributes : ∀ rule ∈ rules.attributes, rule.Spares reserved
  discarded : Operation.add ∉ rules.discardedOperations
  rejected : Operation.add ∉ rules.rejectedOperations
  operations : ∀ rule ∈ rules.operations, rule.name ≠ Operation.add

variable {reserved : List String} {d d' : ResourceDeclarations}

namespace ResourceRules

theorem addsByAttributes_declareChildren {children : List (ChildRule × ResourceRules)}
    (hd : d.AddsByAttributes reserved) (h : declareChildren children d = .ok d') :
    d'.AddsByAttributes reserved := by
  induction children generalizing d with
  | nil =>
      cases h
      exact hd
  | cons pair rest ih =>
      rcases pair with ⟨rule, resource⟩
      have hadded : forall child, (d.addChild child).AddsByAttributes reserved := fun _ =>
        ⟨hd.builtIn, hd.wellNamed, hd.discarded, hd.rejected, hd.overrides⟩
      simp only [declareChildren] at h
      rcases Except.bind_eq_ok h with ⟨begun, _, hafter⟩
      split at hafter
      · rcases Except.bind_eq_ok hafter with ⟨child, _, hrest⟩
        exact ih (hadded child) hrest
      · exact ih (hadded begun) hafter

theorem addsByAttributes_declare {rules : ResourceRules} (hrules : rules.AddsByAttributes reserved)
    (hd : d.AddsByAttributes reserved) (h : rules.declare d = .ok d') :
    d'.AddsByAttributes reserved := by
  rcases rules with ⟨attributes, discarded, rejected, operations, children, newAttributes⟩
  simp only [declare] at h
  rcases Except.bind_eq_ok h with ⟨own, hown, hchildren⟩
  refine addsByAttributes_declareChildren ?_ hchildren
  rcases declareOwn_eq_ok hown with ⟨declared, overrides, hdeclared, hoverrides, rfl⟩
  constructor
  · exact AttributeRule.isBuiltIn_declareAll attributes hd.builtIn hdeclared
  · exact AttributeRule.wellNamed_declareAll hrules.attributes hd.wellNamed hdeclared
  · exact fun hmem => (List.mem_append.mp hmem).elim hd.discarded hrules.discarded
  · exact fun hmem => (List.mem_append.mp hmem).elim hd.rejected hrules.rejected
  · refine List.forall_mem_append.mpr ⟨hd.overrides, ?_⟩
    intro o ho
    rcases hoverrides o ho with ⟨rule, hrule, _, _, _, rfl⟩
    exact hrules.operations rule hrule

end ResourceRules
end Config

/-!
# Adding a resource
-/

/-- The entries of an operation that adds a resource, apart from those of the model. -/
def Operation.addHeader (a : Address) : List (String × Value) :=
  [(nameKey, .string add), (addressKey, a.toValue)]

namespace MailPorts

def mail : Address :=
  [Address.subsystemElement "mail"]

/-- The usual port is not sent, another one under the name on the target; encryption is rejected. -/
def rules : Config.ResourceRules :=
  .node
    [⟨["port"], none, [.int 25], [], [], false, none, some "listen-port"⟩,
      ⟨["tls"], none, [], [.defined], [], false, none, none⟩]
    [] [] [] [] []

def declared : ResourceDeclarations :=
  match rules.declare (ResourceDeclarations.ofSubsystem "mail") with
  | .ok d => d
  | .error _ => ResourceDeclarations.ofSubsystem "mail"

def entries : List (String × Value) :=
  [("tls", .boolean true), ("port", .int 2525)]

/-- The context at the beginning, in which no resource type is registered. -/
def context : Context :=
  Context.start ⟨"legacy-host", ⟨1, 4, 0⟩, [("mail", ⟨1, 0, 0⟩)], .host⟩
    (ManagementModel.ofRoot .empty)

end MailPorts

end MixedDomain
