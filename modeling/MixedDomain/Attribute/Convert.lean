import MixedDomain.Attribute.Discard

/-!
# Converting attributes

## The decision

A conversion makes the value that the target is to have.  It is asked for every
attribute that has one, also for an attribute that is missing, which it sees as
undefined.
-/

namespace MixedDomain

/-- How the value of an attribute is converted. -/
inductive Conversion where
  | default
  | fixed (value : Value)
  /-- A conversion of its own, which may fail. -/
  | apply (convert : Address -> String -> Value -> TransformM Value)

def Conversion.convert (conversion : Conversion) (a : Address) (name : String) (v : Value) :
    TransformM Value :=
  match conversion with
  | .default => do
      if v.isDefined then
        return v
      else
        let c ← get
        return (DiscardCheck.attributeDefault? a name c).getD v
  | .fixed value => pure value
  | .apply convert => convert a name v

end MixedDomain
