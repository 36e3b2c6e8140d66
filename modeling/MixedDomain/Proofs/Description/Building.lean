import MixedDomain.Proofs.Description.Declaring
import MixedDomain.Proofs.Sequence

/-!
# Building descriptions

## Declaring step by step

Declarations about a resource begin with its element, and grow by one declaration
after the other.  Those about an operation or a resource below are begun, are made on
their own, and are then added; beginning them is refused when the name or the element
is taken.

## Separated trees

Hence the resources right below one of them have distinct elements, everywhere in
the tree that is built.
-/

namespace MixedDomain

namespace ResourceDeclarations

theorem beginOperation_eq_ok_iff {d : ResourceDeclarations} {operation : String}
    {o : OperationDeclarations} :
    d.beginOperation operation = .ok o ↔
      operation ∉ d.overrides.map OperationDeclarations.operation ∧
        o = OperationDeclarations.empty d.path.text operation := by
  have hany : (d.overrides.any fun o => o.operation == operation) = true ↔
      operation ∈ d.overrides.map OperationDeclarations.operation := by
    simp
  unfold beginOperation
  split
  case isTrue htaken =>
      exact iff_of_false nofun fun h => h.1 (hany.mp htaken)
  case isFalse hfree =>
      rw [and_iff_right fun hmem => hfree (hany.mpr hmem), Except.ok.injEq, eq_comm]

theorem beginChild_eq_ok_iff {d child : ResourceDeclarations} {e : PathElement}
    {withholding : WithholdingPolicy} {redirection? : Option Redirection} :
    d.beginChild e withholding redirection? = .ok child ↔
      e ∉ d.children.map element ∧ child = start d.path e withholding redirection? := by
  have hany : (d.children.any fun c => c.element == e) = true ↔ e ∈ d.children.map element := by
    simp
  unfold beginChild
  split
  case isTrue htaken =>
      exact iff_of_false nofun fun h => h.1 (hany.mp htaken)
  case isFalse hfree =>
      rw [and_iff_right fun hmem => hfree (hany.mpr hmem), Except.ok.injEq, eq_comm]

/-- What declarations about a resource become when more is declared, in any order and number. -/
inductive Grows : ResourceDeclarations -> ResourceDeclarations -> Prop where
  | none (d : ResourceDeclarations) : Grows d d
  | attributes {d d' d'' : ResourceDeclarations}
      {declare : AttributeDeclarations -> Except DescriptionError AttributeDeclarations}
      (h : Grows d d') (hdeclare : d'.declareAttributes declare = .ok d'') : Grows d d''
  | discards {d d' : ResourceDeclarations} (h : Grows d d') (names : List String) :
      Grows d (d'.discardOperations names)
  | rejects {d d' : ResourceDeclarations} (h : Grows d d') (names : List String) :
      Grows d (d'.rejectOperations names)
  | placement {d d' : ResourceDeclarations} (h : Grows d d') (placement : Placement) :
      Grows d (d'.place placement)
  | operation {d d' : ResourceDeclarations} {begun o : OperationDeclarations} (h : Grows d d')
      (hbegin : d'.beginOperation o.operation = .ok begun) : Grows d (d'.addOperation o)
  | child {d d' begun child : ResourceDeclarations} {e : PathElement}
      {withholding : WithholdingPolicy} {redirection? : Option Redirection} (h : Grows d d')
      (hbegin : d'.beginChild e withholding redirection? = .ok begun) (hchild : Grows begun child) :
      Grows d (d'.addChild child)

def IsBuilt (d : ResourceDeclarations) : Prop :=
  exists e, Grows (start Address.root e (.fixed .never) none) d

def DistinctBelow (d : ResourceDeclarations) : Prop :=
  (d.children.map element).Nodup

variable {d d' : ResourceDeclarations}

theorem Everywhere.of_children_eq (h : d.Everywhere DistinctBelow)
    (hchildren : d'.children = d.children) : d'.Everywhere DistinctBelow := by
  refine .intro ?_ (hchildren ▸ h.of_mem)
  rw [DistinctBelow, hchildren]
  exact h.own

theorem distinctBelow_start (parent : Address) (e : PathElement) (withholding : WithholdingPolicy)
    (redirection? : Option Redirection) :
    (start parent e withholding redirection?).Everywhere DistinctBelow :=
  .intro List.nodup_nil nofun

theorem Grows.distinctBelow (h : Grows d d') (hd : d.Everywhere DistinctBelow) :
    d'.Everywhere DistinctBelow ∧ d'.element = d.element := by
  induction h with
  | none d => exact ⟨hd, rfl⟩
  | attributes _ hdeclare ih =>
      rcases ih hd with ⟨hdistinct, helement⟩
      rcases Except.map_eq_ok hdeclare with ⟨declared, _, rfl⟩
      exact ⟨hdistinct.of_children_eq rfl, helement⟩
  | discards _ names ih => exact ⟨(ih hd).1.of_children_eq rfl, (ih hd).2⟩
  | rejects _ names ih => exact ⟨(ih hd).1.of_children_eq rfl, (ih hd).2⟩
  | placement _ placement ih => exact ⟨(ih hd).1.of_children_eq rfl, (ih hd).2⟩
  | operation _ _ ih => exact ⟨(ih hd).1.of_children_eq rfl, (ih hd).2⟩
  | @child d d' begun child e withholding redirection? _ hbegin _ ih ihchild =>
      rcases ih hd with ⟨hdistinct, helement⟩
      rcases beginChild_eq_ok_iff.mp hbegin with ⟨hfree, rfl⟩
      rcases ihchild (distinctBelow_start d'.path e withholding redirection?) with ⟨hchild, hsame⟩
      refine ⟨hdistinct.addChild ?_ hchild, helement⟩
      -- the new child has the element that it was begun with, which no other one has
      rw [DistinctBelow, addChild, List.map_append, List.map_singleton, hsame,
        ← List.concat_eq_append, List.nodup_concat]
      exact ⟨hfree, hdistinct.own⟩

theorem IsBuilt.distinctBelow (h : d.IsBuilt) : d.Everywhere DistinctBelow := by
  rcases h with ⟨e, h⟩
  exact (h.distinctBelow (distinctBelow_start Address.root e (.fixed .never) .none)).1

end ResourceDeclarations

/-- Whether the trees right below one have distinct elements, everywhere in a tree. -/
inductive DescriptionTree.Separated : DescriptionTree -> Prop where
  | intro {t : DescriptionTree} (hdistinct : (t.children.map element).Nodup)
      (hbelow : ∀ child ∈ t.children, Separated child) : Separated t

namespace ResourceDeclarations

theorem element_describe (d : ResourceDeclarations) : d.describe.element = d.element := by
  cases d
  rfl

theorem children_describe (d : ResourceDeclarations) :
    d.describe.children = d.children.map describe := by
  cases d
  exact describeAll_eq_map _

theorem separated_describe {d : ResourceDeclarations} (h : d.Everywhere DistinctBelow) :
    d.describe.Separated := by
  induction h with
  | @intro d hown _ ih =>
      constructor
      · rw [children_describe, List.map_map]
        have helements : DescriptionTree.element ∘ describe = element := funext element_describe
        rw [helements]
        exact hown
      · rw [children_describe]
        exact List.forall_mem_map.mpr ih

end ResourceDeclarations
end MixedDomain
