import MixedDomain.Attribute.Convert
import MixedDomain.Attribute.Reject

/-!
# Descriptions of attributes

## What is declared

A description holds all that is declared for one attribute: when it is
discarded, when it is rejected, how it is converted and what it is called on the
target.
-/

namespace MixedDomain

/-- All that is declared for one attribute. -/
structure AttributeDescription where
  name : String
  discard? : Option DiscardCheck
  rejects : List RejectCheck
  conversion? : Option Conversion
  newName? : Option String

namespace AttributeDescription

def ofName (name : String) : AttributeDescription :=
  ⟨name, none, [], none, none⟩

def discardsAttribute (d : AttributeDescription) (a : Address) (v : Value) (c : Context) : Bool :=
  match d.discard? with
  | some check => check.discardsAttribute a d.name v c
  | none => false

def discardsParameter (d : AttributeDescription) (a : Address) (v operation : Value)
    (c : Context) : Bool :=
  match d.discard? with
  | some check => check.discardsParameter a d.name v operation c
  | none => false

def rejecting (d : AttributeDescription) (a : Address) (v : Value) (c : Context) :
    List RejectCheck :=
  d.rejects.filter fun check => check.rejects a d.name v c

def addRejections (d : AttributeDescription) (a : Address) (v : Value) (c : Context)
    (rejections : Rejections) : Rejections :=
  (d.rejecting a v c).foldl (fun rejections check => rejections.add check d.name v) rejections

def convert (d : AttributeDescription) (a : Address) (v : Value) : TransformM Value :=
  match d.conversion? with
  | some conversion => conversion.convert a d.name v
  | none => pure v

def find? (name : String) (descriptions : List AttributeDescription) :
    Option AttributeDescription :=
  descriptions.find? fun d => d.name == name

/-- The descriptions of `base` that are not declared anew, and then the new ones. -/
def merge (base overriding : List AttributeDescription) : List AttributeDescription :=
  (base.filter fun b => overriding.all fun o => o.name != b.name) ++ overriding

end AttributeDescription
end MixedDomain
