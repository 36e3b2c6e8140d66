import MixedDomain.Entries

/-!
# Records in documents

## Documents

A format of documents has texts, truth values, lists and records.  Which of its
documents count as one of these is up to the format.

## Fields

A record is read field by field.  Members that are no fields are ignored, and a
field that stands twice is refused.  A field may be required, have a default for
when it is missing, or be optional; only an optional field may be null.
-/

namespace MixedDomain

/-- A format of documents, as far as records are read from it. -/
class Document (document : Type) where
  text? : document -> Option String
  truth? : document -> Option Bool
  items? : document -> Option (List document)
  members? : document -> Option (List (String × document))
  isNull : document -> Bool

namespace Record

variable {document item : Type} [Document document]

/-- The member of a name, if there is one; nothing if there are two. -/
def member? (key : String) (members : List (String × document)) : Option (Option document) :=
  match members.filter fun member => member.1 == key with
  | [] => some none
  | [member] => some (some member.2)
  | _ => none

def required? (read : document -> Option item) (key : String)
    (members : List (String × document)) : Option item := do
  let found ← member? key members
  found.bind read

def defaulted? (default : item) (read : document -> Option item) (key : String)
    (members : List (String × document)) : Option item := do
  match ← member? key members with
  | none => some default
  | some document => read document

def optional? (read : document -> Option item) (key : String)
    (members : List (String × document)) : Option (Option item) := do
  match ← member? key members with
  | none => some none
  | some document => if Document.isNull document then some none else (read document).map some

def listOf? (read : document -> Option item) (document : document) : Option (List item) := do
  let items ← Document.items? document
  items.mapM read

/-- A field with a list, which is empty if it is missing. -/
def list? (read : document -> Option item) (key : String) (members : List (String × document)) :
    Option (List item) :=
  defaulted? [] (listOf? read) key members

def named? (all : List item) (name : item -> String) (document : document) : Option item := do
  let s ← Document.text? document
  all.find? fun x => name x == s

end Record
end MixedDomain
