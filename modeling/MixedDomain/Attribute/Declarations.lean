import MixedDomain.Attribute.Description
import MixedDomain.Description.Error

/-!
# Declaring attributes

## Declarations

Declarations about attributes are collected one by one, and each attribute has
its place by the first declaration about it.  Later discard checks and
conversions replace earlier ones, reject checks add up, and there is only one new
name.  Checks of fields become one check of the attribute, after all others.
-/

namespace MixedDomain

/-- What has been declared about one attribute. -/
structure AttributeDeclaration where
  description : AttributeDescription
  fields : List (String × RejectCheck)

namespace AttributeDeclaration

def ofName (name : String) : AttributeDeclaration :=
  ⟨AttributeDescription.ofName name, []⟩

def describe (d : AttributeDeclaration) : AttributeDescription :=
  if d.fields.isEmpty then
    d.description
  else
    { d.description with rejects := d.description.rejects ++ [.fields d.fields] }

end AttributeDeclaration

/-- A check of discarding, a check of rejecting and a conversion that belong together. -/
structure CombinedPolicy where
  discard : DiscardCheck
  reject : RejectCheck
  conversion : Conversion

/-- The declarations about the attributes of one resource or operation. -/
structure AttributeDeclarations where
  /-- The address of the resource, for messages. -/
  path : String
  /-- The declarations by attribute, in the order of the first declaration about each. -/
  declared : List (String × AttributeDeclaration)

namespace AttributeDeclarations

def empty (path : String) : AttributeDeclarations :=
  ⟨path, []⟩

def modify (name : String) (f : AttributeDeclaration -> AttributeDeclaration)
    (ds : AttributeDeclarations) : AttributeDeclarations :=
  let declaration := (Entries.get? name ds.declared).getD (AttributeDeclaration.ofName name)
  { ds with declared := Entries.insert name (f declaration) ds.declared }

def describeAll (names : List String) (f : AttributeDescription -> AttributeDescription)
    (ds : AttributeDeclarations) : AttributeDeclarations :=
  names.foldl
    (fun ds name => ds.modify name fun d => { d with description := f d.description }) ds

def discard (check : DiscardCheck) (names : List String) (ds : AttributeDeclarations) :
    AttributeDeclarations :=
  ds.describeAll names fun d => { d with discard? := some check }

def reject (check : RejectCheck) (names : List String) (ds : AttributeDeclarations) :
    AttributeDeclarations :=
  ds.describeAll names fun d => { d with rejects := d.rejects ++ [check] }

def convert (conversion : Conversion) (names : List String) (ds : AttributeDeclarations) :
    AttributeDeclarations :=
  ds.describeAll names fun d => { d with conversion? := some conversion }

def combine (policy : CombinedPolicy) (names : List String) (ds : AttributeDeclarations) :
    AttributeDeclarations :=
  ds.describeAll names fun d =>
    { d with
      discard? := some policy.discard
      rejects := d.rejects ++ [policy.reject]
      conversion? := some policy.conversion }

/-- The new name of an attribute, if it has one already. -/
def newName? (name : String) (ds : AttributeDeclarations) : Option String :=
  (Entries.get? name ds.declared).bind fun d => d.description.newName?

/-- Gives an attribute a new name, which it must not have yet. -/
def rename (name newName : String) (ds : AttributeDeclarations) :
    Except DescriptionError AttributeDeclarations :=
  match ds.newName? name with
  | some existing => .error (.duplicateRename ds.path name existing)
  | none => .ok (ds.describeAll [name] fun d => { d with newName? := some newName })

/-- Rejects an attribute, which must be declared already, when a field of it is rejected. -/
def rejectField (name field : String) (check : RejectCheck) (ds : AttributeDeclarations) :
    Except DescriptionError AttributeDeclarations :=
  if Entries.contains name ds.declared then
    .ok (ds.modify name fun d => { d with fields := d.fields ++ [(field, check)] })
  else
    .error (.unknownField ds.path name field)

/-- The descriptions of the attributes, in order. -/
def describe (ds : AttributeDeclarations) : List AttributeDescription :=
  ds.declared.map fun entry => entry.2.describe

end AttributeDeclarations
end MixedDomain
