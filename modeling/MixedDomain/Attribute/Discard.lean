import MixedDomain.Attribute.Expression
import MixedDomain.Context
import MixedDomain.Operation

/-!
# Discarding attributes

## The decision

A check says whether a value can be left out without loss.  A value with an
expression is kept unless the check discards expressions, an undefined value is
left out if the check discards undefined values, and about all other values the
check decides by a test of its own.

## Defaults

The check for defaults compares a value with the default that is documented for
the attribute.  For a parameter of an operation the default of the parameter
counts, save that writing an attribute is compared with the attribute itself and
a parameter of `add` that is not documented with the attribute of its name.
-/

namespace MixedDomain

abbrev AttributeTest :=
  Address -> String -> Value -> Context -> Bool

/-- When an attribute is discarded. -/
inductive DiscardCheck where
  | always
  | undefined
  | never
  | default
  | values (values : List Value) (keepUndefined : Bool)
  | test (expressions undefined : Bool) (test : AttributeTest)

namespace DiscardCheck

def discardsExpressions : DiscardCheck -> Bool
  | .always => true
  | .test flag _ _ => flag
  | _ => false

def discardsUndefined : DiscardCheck -> Bool
  | .never => false
  | .values _ keepUndefined => !keepUndefined
  | .test _ flag _ => flag
  | _ => true

def attributeDefault? (a : Address) (name : String) (c : Context) : Option Value := do
  let registration ← c.registrationFromRoot? a
  let definition ← registration.attribute? name
  definition.default?

def parameterDefault? (a : Address) (operation name : String) (c : Context) : Option Value := do
  let registration ← c.registrationFromRoot? a
  match (registration.operation? operation).bind (OperationDefinition.parameter? name) with
  | some parameter => parameter.default?
  | none => if operation = Operation.add then attributeDefault? a name c else none

def isDefault (v : Value) : Option Value -> Bool
  | some d => d == v
  | none => false

/-- What a check decides about a defined value without expressions. -/
def testValue (check : DiscardCheck) (a : Address) (name : String) (v : Value) (c : Context) :
    Bool :=
  match check with
  | .always => true
  | .undefined => false
  | .never => false
  | .default => isDefault v (attributeDefault? a name c)
  | .values listed _ => !v.isExpression && v.isAmong listed
  | .test _ _ holds => holds a name v c

def decideBy (check : DiscardCheck) (v : Value) (otherwise : Bool) : Bool :=
  if !check.discardsExpressions && v.hasExpression then false
  else if check.discardsUndefined && !v.isDefined then true
  else otherwise

def discardsAttribute (check : DiscardCheck) (a : Address) (name : String) (v : Value) (c : Context) :
    Bool :=
  check.decideBy v (check.testValue a name v c)

def operationDefault? (a : Address) (name : String) (operation : Value) (c : Context) :
    Option Value :=
  let operationName := ((operation.get? Operation.nameKey).bind Value.text?).getD ""
  if operationName = Operation.writeAttribute then
    attributeDefault? a name c
  else
    parameterDefault? a operationName name c

def discardsParameter (check : DiscardCheck) (a : Address) (name : String)
    (v operation : Value) (c : Context) : Bool :=
  match check with
  | .default => check.decideBy v (isDefault v (operationDefault? a name operation c))
  | check => check.discardsAttribute a name v c

end DiscardCheck
end MixedDomain
