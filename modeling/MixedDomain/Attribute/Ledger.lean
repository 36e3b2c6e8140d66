import MixedDomain.Attribute.Declarations
import MixedDomain.Entries.Sorted

/-!
# Declaring attributes in a ledger

## Calls

All that can be declared about attributes is declared by one of six calls.  Two of them
may be refused.

## Ledgers

A ledger keeps three things apart: the order in which attributes are declared first,
what is declared about each of them, and the checks of fields of those that have some.
Calls change a ledger in its place, and only when the descriptions are wanted are the
three put together, each attribute being taken out as its turn comes.
-/

namespace MixedDomain

/-- A call that declares something about attributes. -/
inductive AttributeCall where
  | discard (check : DiscardCheck) (names : List String)
  | reject (check : RejectCheck) (names : List String)
  | convert (conversion : Conversion) (names : List String)
  | combine (policy : CombinedPolicy) (names : List String)
  | rename (name newName : String)
  | rejectField (name field : String) (check : RejectCheck)

namespace AttributeCall

/-- The attributes that a call declares; for a check of a field the attribute has to be declared
already. -/
def names : AttributeCall -> List String
  | .discard _ names => names
  | .reject _ names => names
  | .convert _ names => names
  | .combine _ names => names
  | .rename name _ => [name]
  | .rejectField _ _ _ => []

def change : AttributeCall -> AttributeDescription -> AttributeDescription
  | .discard check _, d => { d with discard? := some check }
  | .reject check _, d => { d with rejects := d.rejects ++ [check] }
  | .convert conversion _, d => { d with conversion? := some conversion }
  | .combine policy _, d =>
      { d with
        discard? := some policy.discard
        rejects := d.rejects ++ [policy.reject]
        conversion? := some policy.conversion }
  | .rename _ newName, d => { d with newName? := some newName }
  | .rejectField _ _ _, d => d

/-- The declarations after a call, unless it is refused. -/
def declareIn (ds : AttributeDeclarations) :
    AttributeCall -> Except DescriptionError AttributeDeclarations
  | .discard check names => .ok (ds.discard check names)
  | .reject check names => .ok (ds.reject check names)
  | .convert conversion names => .ok (ds.convert conversion names)
  | .combine policy names => .ok (ds.combine policy names)
  | .rename name newName => ds.rename name newName
  | .rejectField name field check => ds.rejectField name field check

end AttributeCall

abbrev AttributeHistory :=
  List AttributeCall

/-- The declarations after calls, the refused ones of which do not count. -/
def AttributeDeclarations.after (calls : AttributeHistory) (ds : AttributeDeclarations) :
    AttributeDeclarations :=
  calls.foldl (fun ds call => (call.declareIn ds).toOption.getD ds) ds

/-- The order of attributes, what is declared about each, and the checks of their fields. -/
structure AttributeLedger where
  /-- The address of the resource, for messages. -/
  path : String
  order : List String
  attributes : List (String × AttributeDescription)
  fields : List (String × List (String × RejectCheck))

namespace AttributeLedger

def empty (path : String) : AttributeLedger :=
  ⟨path, [], [], []⟩

/-- Changes what is declared about an attribute, which is put last in the order if it is new. -/
def edit (name : String) (f : AttributeDescription -> AttributeDescription) (l : AttributeLedger) :
    AttributeLedger :=
  let d := (Entries.get? name l.attributes).getD (AttributeDescription.ofName name)
  { l with
    order := if Entries.contains name l.attributes then l.order else l.order ++ [name]
    attributes := Entries.insertSorted name (f d) l.attributes }

def editAll (names : List String) (f : AttributeDescription -> AttributeDescription)
    (l : AttributeLedger) : AttributeLedger :=
  names.foldl (fun l name => l.edit name f) l

def addField (name field : String) (check : RejectCheck) (l : AttributeLedger) : AttributeLedger :=
  let (checks?, others) := Entries.extract name l.fields
  { l with fields := Entries.insertSorted name (checks?.getD [] ++ [(field, check)]) others }

/-- The new name of an attribute, if it has one already. -/
def newName? (name : String) (l : AttributeLedger) : Option String :=
  (Entries.get? name l.attributes).bind AttributeDescription.newName?

/-- What a call answers, and the ledger after it. -/
def answer (l : AttributeLedger) (call : AttributeCall) :
    Except DescriptionError Unit × AttributeLedger :=
  match call with
  | .rename name _ =>
      match l.newName? name with
      | some existing => (.error (.duplicateRename l.path name existing), l)
      | none => (.ok (), l.edit name call.change)
  | .rejectField name field check =>
      if Entries.contains name l.attributes then
        (.ok (), l.addField name field check)
      else
        (.error (.unknownField l.path name field), l)
  | call => (.ok (), l.editAll call.names call.change)

def after (calls : AttributeHistory) (l : AttributeLedger) : AttributeLedger :=
  calls.foldl (fun l call => (l.answer call).2) l

def collect : List String -> List (String × AttributeDescription) ->
    List (String × List (String × RejectCheck)) -> List AttributeDescription
  | [], _, _ => []
  | name :: rest, attributes, fields =>
      match Entries.extract name attributes with
      | (none, attributes) => collect rest attributes fields
      | (some d, attributes) =>
          match Entries.extract name fields with
          | (none, fields) => d :: collect rest attributes fields
          | (some checks, fields) =>
              { d with rejects := d.rejects ++ [.fields checks] } :: collect rest attributes fields

/-- The descriptions of the attributes, in order. -/
def build (l : AttributeLedger) : List AttributeDescription :=
  collect l.order l.attributes l.fields

end AttributeLedger
end MixedDomain
