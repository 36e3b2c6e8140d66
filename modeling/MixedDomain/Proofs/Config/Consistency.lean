import MixedDomain.Proofs.Config.Declaring
import MixedDomain.Proofs.Config.Renaming
import MixedDomain.Proofs.Description.Building

/-!
# Consistent rules

## Contradictions

Rules about a resource contradict each other when they give an attribute two names,
override an operation twice, or are about two types of children at one element.
Those about the children that are sent must not contradict each other either; those
about a child that is withheld do not count.

## Declaring consistent rules

Rules may be declared after others about the same resource.  What has been declared
shows the names that are taken, and all is accepted just if the rules before and the
new ones do not contradict each other.
-/

namespace MixedDomain

namespace Config

/-!
# Operations
-/

namespace OperationRule

/-- Whether no operation is overridden twice, and every override gives new names soundly. -/
def OverrideOnce (rules : List OperationRule) : Prop :=
  List.EachApart OperationRule.name (fun rule => AttributeRule.RenameOnce rule.attributes) rules

/-- Whether overrides are those of rules, which override nothing twice. -/
structure Shown (rules : List OperationRule) (overrides : List OperationDeclarations) : Prop where
  once : OverrideOnce rules
  operations : overrides.map OperationDeclarations.operation = rules.map OperationRule.name

variable {rule : OperationRule} {before : List OperationRule} {d d' : ResourceDeclarations}

theorem Shown.declare_accepts (hd : Shown before d.overrides)
    (h : OverrideOnce (before ++ [rule])) : ∃ d', rule.declare d = .ok d' := by
  rcases List.eachApart_append_singleton.mp h with ⟨_, hnew, hrenames⟩
  rw [← hd.operations] at hnew
  have hbegin := ResourceDeclarations.beginOperation_eq_ok_iff.mpr ⟨hnew, rfl⟩
  rcases (AttributeRule.checks_declare rule.attributes).foldlM_accepts
    (AttributeRule.shown_empty d.path.text) hrenames with ⟨attributes, hattributes⟩
  exact ⟨_, Except.bind_of_eq_ok hbegin (Except.bind_of_eq_ok hattributes rfl)⟩

theorem Shown.declare_keeps (hd : Shown before d.overrides) (h : rule.declare d = .ok d') :
    Shown (before ++ [rule]) d'.overrides := by
  rcases Except.bind_eq_ok h with ⟨o, hbegin, hrest⟩
  rcases Except.bind_eq_ok hrest with ⟨attributes, hattributes, hend⟩
  rcases ResourceDeclarations.beginOperation_eq_ok_iff.mp hbegin with ⟨hnew, rfl⟩
  cases hend
  have hshown := (AttributeRule.checks_declare rule.attributes).foldlM_keeps
    (AttributeRule.shown_empty d.path.text) hattributes
  constructor
  · rw [hd.operations] at hnew
    exact List.eachApart_append_singleton.mpr ⟨hd.once, hnew, hshown.once⟩
  · rw [ResourceDeclarations.addOperation, List.map_append, List.map_append, hd.operations]
    rfl

theorem checks_declare (rules : List OperationRule) :
    Except.Checks (fun d rule => declare rule d) OverrideOnce
      (fun before d => Shown before d.overrides) rules where
  of_append _ _ h := h.of_append
  accepts _ _ _ _ hd h := hd.declare_accepts h
  keeps _ _ _ _ _ hd h := hd.declare_keeps h

end OperationRule

/-!
# Resources
-/

namespace ResourceRules

/-- Rules about a resource that do not contradict each other. -/
inductive IsConsistent : ResourceRules -> Prop where
  | intro {rules : ResourceRules} (hattributes : AttributeRule.RenameOnce rules.attributes)
      (hoperations : OperationRule.OverrideOnce rules.operations)
      (hchildren : (rules.children.map fun child => child.1.element).Nodup)
      (hbelow : ∀ child ∈ rules.children, child.1.withholding = .never -> IsConsistent child.2) :
      IsConsistent rules

def followedBy (before rules : ResourceRules) : ResourceRules :=
  { attributes := before.attributes ++ rules.attributes
    discardedOperations := before.discardedOperations ++ rules.discardedOperations
    rejectedOperations := before.rejectedOperations ++ rules.rejectedOperations
    operations := before.operations ++ rules.operations
    children := before.children ++ rules.children
    newAttributes :=
      if rules.newAttributes.isEmpty then before.newAttributes else rules.newAttributes }

def AgreeBelow (children : List (ChildRule × ResourceRules)) : Prop :=
  List.EachApart (fun child => child.1.element)
    (fun child => child.1.withholding = .never -> child.2.IsConsistent) children

/-- Whether children are those of rules, which do not contradict each other. -/
structure ShownBelow (children : List (ChildRule × ResourceRules))
    (declared : List ResourceDeclarations) : Prop where
  agree : AgreeBelow children
  elements : declared.map ResourceDeclarations.element = children.map fun child => child.1.element

/-- Whether declarations show the names that rules take, without contradictions. -/
structure Shown (rules : ResourceRules) (d : ResourceDeclarations) : Prop where
  attributes : AttributeRule.Shown rules.attributes d.attributes
  operations : OperationRule.Shown rules.operations d.overrides
  children : ShownBelow rules.children d.children

theorem isConsistent_iff {rules : ResourceRules} :
    rules.IsConsistent ↔ AttributeRule.RenameOnce rules.attributes ∧
      OperationRule.OverrideOnce rules.operations ∧ AgreeBelow rules.children := by
  constructor
  · rintro ⟨hattributes, hoperations, hchildren, hbelow⟩
    exact ⟨hattributes, hoperations, hchildren, hbelow⟩
  · rintro ⟨hattributes, hoperations, hchildren, hbelow⟩
    exact .intro hattributes hoperations hchildren hbelow

theorem Shown.isConsistent {rules : ResourceRules} {d : ResourceDeclarations} (h : Shown rules d) :
    rules.IsConsistent :=
  isConsistent_iff.mpr ⟨h.attributes.once, h.operations.once, h.children.agree⟩

theorem IsConsistent.of_followedBy {before rules : ResourceRules}
    (h : (before.followedBy rules).IsConsistent) : before.IsConsistent := by
  rcases isConsistent_iff.mp h with ⟨hattributes, hoperations, hchildren⟩
  exact isConsistent_iff.mpr
    ⟨hattributes.of_append, hoperations.of_append, hchildren.of_append⟩

theorem isConsistent_empty_followedBy {rules : ResourceRules} :
    (empty.followedBy rules).IsConsistent ↔ rules.IsConsistent := by
  rw [isConsistent_iff, isConsistent_iff]
  exact Iff.rfl

theorem shown_start (parent : Address) (e : PathElement) (withholding : WithholdingPolicy)
    (redirection? : Option Redirection) :
    Shown empty (.start parent e withholding redirection?) where
  attributes := AttributeRule.shown_empty _
  operations := ⟨⟨List.nodup_nil, nofun⟩, rfl⟩
  children := ⟨⟨List.nodup_nil, nofun⟩, rfl⟩

/-!
# Declaring children
-/

/-- Declares the rules about a child that has been begun, unless it is withheld. -/
def declareBegun (child : ChildRule × ResourceRules) (begun : ResourceDeclarations) :
    Except DescriptionError ResourceDeclarations :=
  if child.1.withholding = .never then child.2.declare begun else .ok begun

def declareChild (d : ResourceDeclarations) (child : ChildRule × ResourceRules) :
    Except DescriptionError ResourceDeclarations := do
  let begun ← child.1.begin d
  let declared ← declareBegun child begun
  return d.addChild declared

theorem declareChildren_eq_foldlM (children : List (ChildRule × ResourceRules))
    (d : ResourceDeclarations) : declareChildren children d = children.foldlM declareChild d := by
  induction children generalizing d with
  | nil => rfl
  | cons child rest ih =>
      rcases child with ⟨rule, resource⟩
      rw [List.foldlM_cons, declareChildren, declareChild, bind_assoc]
      apply bind_congr
      intro begun
      simp only [← ih, declareBegun, bind_assoc, pure_bind]
      cases rule.withholding <;> rfl

variable {d d' : ResourceDeclarations}

theorem begin_eq_ok_iff {rule : ChildRule} {begun : ResourceDeclarations} :
    rule.begin d = .ok begun ↔
      rule.element ∉ d.children.map ResourceDeclarations.element ∧
        begun = .start d.path rule.element (.fixed rule.withholding)
          (if rule.withholding = .never then rule.redirect?.map .element else none) :=
  ResourceDeclarations.beginChild_eq_ok_iff

theorem declareChild_eq_ok {child : ChildRule × ResourceRules} (h : declareChild d child = .ok d') :
    exists begun declared, child.1.begin d = .ok begun ∧ declareBegun child begun = .ok declared ∧
      d' = d.addChild declared := by
  rcases Except.bind_eq_ok h with ⟨begun, hbegin, hafter⟩
  rcases Except.bind_eq_ok hafter with ⟨declared, hdeclare, hend⟩
  exact ⟨begun, declared, hbegin, hdeclare, (Except.ok.inj hend).symm⟩

theorem declareChildren_eq_ok {children : List (ChildRule × ResourceRules)}
    (h : declareChildren children d = .ok d') :
    exists declared, d' = { d with children := d.children ++ declared } := by
  rw [declareChildren_eq_foldlM] at h
  refine Except.foldlM_keeps
    (p := fun d' => exists declared, d' = { d with children := d.children ++ declared }) ?_ ?_ h
  · rintro child _ _ after ⟨declared, rfl⟩ hstep
    rcases declareChild_eq_ok hstep with ⟨_, new, _, _, rfl⟩
    refine ⟨declared ++ [new], ?_⟩
    rw [ResourceDeclarations.addChild, List.append_assoc]
  · refine ⟨[], ?_⟩
    rw [List.append_nil]
    cases d
    rfl

theorem element_declare {rules : ResourceRules} (h : rules.declare d = .ok d') :
    d'.element = d.element := by
  rcases rules with ⟨attributes, discarded, rejected, operations, children, newAttributes⟩
  rw [declare] at h
  rcases Except.bind_eq_ok h with ⟨own, hown, hchildren⟩
  rcases declareOwn_eq_ok hown with ⟨declared, overrides, _, _, rfl⟩
  rcases declareChildren_eq_ok hchildren with ⟨below, rfl⟩
  rfl

/-!
# Declaring consistent rules
-/

mutual

theorem of_children {p : ResourceRules -> Prop}
    (hnode : forall rules, (∀ child ∈ rules.children, p child.2) -> p rules) :
    (rules : ResourceRules) -> p rules
  | .node attributes discarded rejected operations children newAttributes =>
      hnode (.node attributes discarded rejected operations children newAttributes)
        (of_children_below hnode children)

theorem of_children_below {p : ResourceRules -> Prop}
    (hnode : forall rules, (∀ child ∈ rules.children, p child.2) -> p rules) :
    (children : List (ChildRule × ResourceRules)) -> ∀ child ∈ children, p child.2
  | [], _, hchild => nomatch hchild
  | (_, resource) :: rest, child, hchild => by
      rcases List.mem_cons.mp hchild with rfl | hrest
      · exact of_children hnode resource
      · exact of_children_below hnode rest child hrest

end

/-- Whether rules are accepted after any others that they do not contradict, and only then. -/
structure Checked (rules : ResourceRules) : Prop where
  accepts : forall before d, Shown before d -> (before.followedBy rules).IsConsistent ->
    ∃ d', rules.declare d = .ok d'
  keeps : forall before d d', Shown before d -> rules.declare d = .ok d' ->
    Shown (before.followedBy rules) d'

theorem Checked.declareBegun_accepts {child : ChildRule × ResourceRules} (h : child.2.Checked)
    {begun : ResourceDeclarations} (hbegun : Shown empty begun)
    (hbelow : child.1.withholding = .never -> child.2.IsConsistent) :
    ∃ declared, declareBegun child begun = .ok declared := by
  unfold declareBegun
  split
  case isTrue hnever =>
      exact h.accepts empty begun hbegun (isConsistent_empty_followedBy.mpr (hbelow hnever))
  case isFalse => exact ⟨begun, rfl⟩

theorem Checked.declareBegun_keeps {child : ChildRule × ResourceRules} (h : child.2.Checked)
    {begun declared : ResourceDeclarations} (hbegun : Shown empty begun)
    (hdeclare : declareBegun child begun = .ok declared) :
    declared.element = begun.element ∧
      (child.1.withholding = .never -> child.2.IsConsistent) := by
  unfold declareBegun at hdeclare
  split at hdeclare
  case isTrue hnever =>
      have hdeclared := h.keeps empty begun declared hbegun hdeclare
      exact ⟨element_declare hdeclare,
        fun _ => isConsistent_empty_followedBy.mp hdeclared.isConsistent⟩
  case isFalse hwithheld =>
      cases hdeclare
      exact ⟨rfl, fun hnever => absurd hnever hwithheld⟩

theorem checks_declareChild {children : List (ChildRule × ResourceRules)}
    (h : ∀ child ∈ children, child.2.Checked) :
    Except.Checks declareChild AgreeBelow (fun before d => ShownBelow before d.children)
      children where
  of_append _ _ hagree := hagree.of_append
  accepts child hchild before d hd hagree := by
    rcases List.eachApart_append_singleton.mp hagree with ⟨_, hnew, hbelow⟩
    rw [← hd.elements] at hnew
    have hbegin := begin_eq_ok_iff.mpr ⟨hnew, rfl⟩
    rcases (h child hchild).declareBegun_accepts (shown_start _ _ _ _) hbelow with
      ⟨declared, hdeclared⟩
    exact ⟨_, Except.bind_of_eq_ok hbegin (Except.bind_of_eq_ok hdeclared rfl)⟩
  keeps child hchild before d d' hd hdeclare := by
    rcases declareChild_eq_ok hdeclare with ⟨begun, declared, hbegin, hdeclared, rfl⟩
    rcases begin_eq_ok_iff.mp hbegin with ⟨hnew, rfl⟩
    rcases (h child hchild).declareBegun_keeps (shown_start _ _ _ _) hdeclared with
      ⟨helement, hbelow⟩
    constructor
    · rw [hd.elements] at hnew
      exact List.eachApart_append_singleton.mpr ⟨hd.agree, hnew, hbelow⟩
    · rw [ResourceDeclarations.addChild, List.map_append, List.map_append, hd.elements,
        List.map_singleton, helement]
      rfl

variable {attributes : List AttributeRule} {discarded rejected newAttributes : List String}
  {operations : List OperationRule} {before : ResourceRules}

theorem Shown.declareOwn_accepts (hd : Shown before d)
    (hattributes : AttributeRule.RenameOnce (before.attributes ++ attributes))
    (hoperations : OperationRule.OverrideOnce (before.operations ++ operations)) :
    ∃ d', declareOwn attributes discarded rejected operations newAttributes d = .ok d' := by
  rcases (AttributeRule.checks_declare attributes).foldlM_accepts hd.attributes hattributes with
    ⟨declared, hdeclared⟩
  have hfirst : d.declareAttributes (AttributeRule.declareAll attributes) =
      .ok { d with attributes := declared } :=
    Except.map_of_eq_ok _ hdeclared
  rcases (OperationRule.checks_declare operations).foldlM_accepts
    (s := ({ d with attributes := declared }.discardOperations discarded).rejectOperations rejected)
    hd.operations hoperations with ⟨last, hlast⟩
  cases hplacement : placementOf? newAttributes with
  | none =>
      refine ⟨last, Except.bind_of_eq_ok hfirst (Except.bind_of_eq_ok hlast ?_)⟩
      rw [hplacement]
      rfl
  | some placement =>
      refine ⟨last.place placement, Except.bind_of_eq_ok hfirst (Except.bind_of_eq_ok hlast ?_)⟩
      rw [hplacement]
      rfl

theorem Shown.declareOwn_keeps (hd : Shown before d)
    (h : declareOwn attributes discarded rejected operations newAttributes d = .ok d') :
    AttributeRule.Shown (before.attributes ++ attributes) d'.attributes ∧
      OperationRule.Shown (before.operations ++ operations) d'.overrides ∧
        d'.children = d.children := by
  rcases Except.bind_eq_ok h with ⟨d₁, hfirst, hrest⟩
  rcases Except.bind_eq_ok hrest with ⟨d₂, hlast, hend⟩
  rcases Except.map_eq_ok hfirst with ⟨declared, hdeclared, rfl⟩
  have hattributes :=
    (AttributeRule.checks_declare attributes).foldlM_keeps hd.attributes hdeclared
  have hoperations := (OperationRule.checks_declare operations).foldlM_keeps
    (r := fun before d => OperationRule.Shown before d.overrides) hd.operations hlast
  rcases OperationRule.foldlM_declare_eq_ok hlast with ⟨overrides, rfl, _⟩
  cases hplacement : placementOf? newAttributes with
  | none =>
      rw [hplacement] at hend
      cases hend
      exact ⟨hattributes, hoperations, rfl⟩
  | some placement =>
      rw [hplacement] at hend
      cases hend
      exact ⟨hattributes, hoperations, rfl⟩

/-- All rules are accepted after any others that they do not contradict, and only then. -/
theorem checked (rules : ResourceRules) : rules.Checked := by
  -- what is declared about a child is new, so that its own rules are the first ones about it
  refine of_children ?_ rules
  rintro ⟨attributes, discarded, rejected, operations, children, newAttributes⟩ hbelow
  have hchecks := checks_declareChild hbelow
  constructor
  · intro before d hd hconsistent
    rcases isConsistent_iff.mp hconsistent with ⟨hattributes, hoperations, hchildren⟩
    rcases hd.declareOwn_accepts hattributes hoperations with ⟨own, hown⟩
    rcases hd.declareOwn_keeps hown with ⟨_, _, hsame⟩
    have hstart : ShownBelow before.children own.children := hsame ▸ hd.children
    rcases hchecks.foldlM_accepts hstart hchildren with ⟨d', hd'⟩
    refine ⟨d', ?_⟩
    rw [declare]
    refine Except.bind_of_eq_ok hown ?_
    rw [declareChildren_eq_foldlM]
    exact hd'
  · intro before d d' hd h
    rw [declare] at h
    rcases Except.bind_eq_ok h with ⟨own, hown, hrest⟩
    rcases hd.declareOwn_keeps hown with ⟨hattributes, hoperations, hsame⟩
    have hstart : ShownBelow before.children own.children := hsame ▸ hd.children
    have hchildren := hchecks.foldlM_keeps
      (r := fun before d => ShownBelow before d.children) hstart
      ((declareChildren_eq_foldlM children own).symm.trans hrest)
    rcases declareChildren_eq_ok hrest with ⟨declared, rfl⟩
    exact ⟨hattributes, hoperations, hchildren⟩

end ResourceRules
end Config
end MixedDomain
