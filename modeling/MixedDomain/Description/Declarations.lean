import MixedDomain.Attribute.Declarations
import MixedDomain.Description.Basic

/-!
# Declaring resources

## Declarations

What happens to a resource, its operations and its children is declared step by
step; contradictions are refused at the step that makes them.  `describe` turns
the declarations into a tree of descriptions.

## Operations

The rules for attributes apply to the operations that add a resource, write an
attribute or make one undefined.  Operations may also be discarded or rejected,
and overrides have the last word about an operation.
-/

namespace MixedDomain

/-- What is declared about one operation of a resource. -/
structure OperationDeclarations where
  operation : String
  attributes : AttributeDeclarations
  inherits : Bool
  withholding : Withholding
  newName? : Option String
  last? : Option Transformer

namespace OperationDeclarations

def empty (path operation : String) : OperationDeclarations :=
  ⟨operation, AttributeDeclarations.empty path, false, .never, none, none⟩

/-- The rules for the operation, given the descriptions of the attributes of the resource. -/
def rules (o : OperationDeclarations) (resource : List AttributeDescription) : List Rule :=
  let own := o.attributes.describe
  let descriptions := if o.inherits then AttributeDescription.merge resource own else own
  Rule.forOperation o.operation descriptions :: (o.newName?.map Rule.rename).toList

def transformer (o : OperationDeclarations) (resource : List AttributeDescription) : Transformer :=
  match o.withholding with
  | .silent => .discard
  | .rejectAndWarn => .reject none
  | .never => .chain (o.rules resource) o.last?

end OperationDeclarations

/-- What is declared about one resource and those below it. -/
structure ResourceDeclarations where
  element : PathElement
  /-- The address of the resource, as messages name it. -/
  path : Address
  withholding : WithholdingPolicy
  redirection? : Option Redirection
  attributes : AttributeDeclarations
  overrides : List OperationDeclarations
  discarded : List String
  rejected : List String
  placement? : Option Placement
  children : List ResourceDeclarations

namespace ResourceDeclarations

def start (parent : Address) (e : PathElement) (withholding : WithholdingPolicy)
    (redirection? : Option Redirection) : ResourceDeclarations :=
  let path := parent.child e
  { element := e
    path, withholding, redirection?
    attributes := AttributeDeclarations.empty path.text
    overrides := []
    discarded := []
    rejected := []
    placement? := none
    children := [] }

def ofSubsystem (name : String) : ResourceDeclarations :=
  start Address.root (Address.subsystemElement name) (.fixed .never) none

def discardOperations (names : List String) (d : ResourceDeclarations) : ResourceDeclarations :=
  { d with discarded := d.discarded ++ names }

def rejectOperations (names : List String) (d : ResourceDeclarations) : ResourceDeclarations :=
  { d with rejected := d.rejected ++ names }

def place (placement : Placement) (d : ResourceDeclarations) : ResourceDeclarations :=
  { d with placement? := some placement }

def declareAttributes {error : Type} (d : ResourceDeclarations)
    (declare : AttributeDeclarations -> Except error AttributeDeclarations) :
    Except error ResourceDeclarations :=
  (declare d.attributes).map fun attributes => { d with attributes := attributes }

/-- Begins declarations about an operation, which must not have any yet. -/
def beginOperation (d : ResourceDeclarations) (operation : String) :
    Except DescriptionError OperationDeclarations :=
  if d.overrides.any fun o => o.operation == operation then
    .error (.duplicateOverride d.path.text operation)
  else
    .ok (OperationDeclarations.empty d.path.text operation)

/-- Begins declarations about a resource directly below, which must not have any yet. -/
def beginChild (d : ResourceDeclarations) (e : PathElement) (withholding : WithholdingPolicy)
    (redirection? : Option Redirection) : Except DescriptionError ResourceDeclarations :=
  if d.children.any fun c => c.element == e then
    .error (.duplicateChild d.path.text e.text)
  else
    .ok (start d.path e withholding redirection?)

def addOperation (o : OperationDeclarations) (d : ResourceDeclarations) : ResourceDeclarations :=
  { d with overrides := d.overrides ++ [o] }

def addChild (d child : ResourceDeclarations) : ResourceDeclarations :=
  { d with children := d.children ++ [child] }

def attributeOperations : List String :=
  [Operation.add, Operation.writeAttribute, Operation.undefineAttribute]

def transformers (attributes : List AttributeDescription) (overrides : List OperationDeclarations)
    (discarded rejected : List String) : List (String × Transformer) :=
  Entries.ofList <|
    (attributeOperations.map fun name => (name, .chain [Rule.forOperation name attributes] none))
      ++ (discarded.map fun name => (name, .discard))
      ++ (rejected.map fun name => (name, .reject none))
      ++ (overrides.map fun o => (o.operation, o.transformer attributes))

mutual

def describe : ResourceDeclarations -> DescriptionTree
  | ⟨element, _, withholding, redirection?, attributes, overrides, discarded, rejected,
      placement?, children⟩ =>
      .node
        { element, withholding, redirection?
          attributes := attributes.describe
          operations := transformers attributes.describe overrides discarded rejected
          placement? }
        (describeAll children)

def describeAll : List ResourceDeclarations -> List DescriptionTree
  | [] => []
  | d :: rest => describe d :: describeAll rest

end

end ResourceDeclarations
end MixedDomain
