import MixedDomain.Text.Template
import MixedDomain.Attribute.Discard

/-!
# Rejecting attributes

## The decision

A check says whether the target would not understand a value.

## Messages

A check has one message for all attributes that it rejects.  What the message
says of no attributes at all identifies it: checks with the same identification
share one message, and the attributes of all of them are named in it.
-/

namespace MixedDomain

/-- When an attribute is rejected. -/
inductive RejectCheck where
  | expressions
  | defined
  | undefined
  | values (values : List Value)
  | list (element : RejectCheck)
  /-- Some of the named entries is rejected; one that is missing counts as undefined. -/
  | fields (fields : List (String × RejectCheck))
  /-- A test of its own, with a template for the message. -/
  | test (template : String) (test : AttributeTest)

/-- Rejected attributes with their values, in the order of their names. -/
abbrev RejectedAttributes :=
  List (String × Value)

namespace RejectCheck

mutual

def rejects : RejectCheck -> AttributeTest
  | .expressions, _, _, v, _ => v.hasExpression
  | .defined, _, _, v, _ => v.isDefined
  | .undefined, _, _, v, _ => !v.isDefined
  | .values listed, _, _, v, _ => v.isAmong listed
  | .list element, a, name, v, c =>
      match v with
      | .list items => items.any fun item => rejects element a name item c
      | _ => false
  | .fields named, a, _, v, c => rejectsField named a v c
  | .test _ holds, a, name, v, c => holds a name v c

def rejectsField : List (String × RejectCheck) -> Address -> Value -> Context -> Bool
  | [], _, _, _ => false
  | (field, check) :: rest, a, v, c =>
      rejects check a field (v.getOrUndefined field) c || rejectsField rest a v c

end

/-- Texts between brackets, with commas. -/
def bracketed (texts : List String) : String :=
  "[" ++ ", ".intercalate texts ++ "]"

def namesOf (attributes : RejectedAttributes) : String :=
  bracketed (Entries.keys attributes)

def attributesMark : String :=
  "\x7battributes\x7d"

def message : RejectCheck -> RejectedAttributes -> String
  | .expressions, attributes =>
      "Attributes " ++ namesOf attributes
        ++ " use expressions, which are not supported by the target model version"
  | .defined, attributes =>
      "Attributes " ++ namesOf attributes
        ++ " are not understood in the target model version and must be undefined"
  | .undefined, attributes =>
      "Attributes " ++ namesOf attributes ++ " must be defined for the target model version"
  | .values _, attributes =>
      "Attributes have values not supported by the target model version: "
        ++ bracketed (attributes.map fun entry => entry.1 ++ "=" ++ entry.2.display)
  | .list element, attributes => message element attributes
  | .fields named, attributes =>
      "Attributes " ++ namesOf attributes ++ " have fields " ++ bracketed (named.map Prod.fst)
        ++ " with values not supported by the target model version"
  | .test template _, attributes =>
      Text.substitute attributesMark (namesOf attributes) template

def messageId (check : RejectCheck) : String :=
  check.message []

end RejectCheck

/-!
# Rejections together
-/

abbrev Rejections :=
  List (RejectCheck × RejectedAttributes)

namespace Rejections

/-- Adds an attribute to the check that has the same message, or adds the check at the end. -/
def add (check : RejectCheck) (name : String) (v : Value) : Rejections -> Rejections
  | [] => [(check, [(name, v)])]
  | (other, attributes) :: rest =>
      if other.messageId = check.messageId then
        (other, Entries.insertSorted name v attributes) :: rest
      else
        (other, attributes) :: add check name v rest

/-- All messages, in the order in which the checks were met. -/
def messages (r : Rejections) : String :=
  "; ".intercalate (r.map fun group => group.1.message group.2)

end Rejections
end MixedDomain
