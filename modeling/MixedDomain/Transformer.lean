import MixedDomain.Rule

/-!
# Transformers of operations

## What a transformer does

A transformer makes the outcome of an operation at an address: it sends the
operation as it is or changed, discards it, or rejects it.

## Chains of rules

A chain applies rules one after the other, each to the operation that the one
before sends, and then an optional transformer.  It ends when an operation is
discarded, and its outcome is the chained one.  Resources that are read meanwhile
are protected.
-/

namespace MixedDomain

/-- Transforms operations. -/
inductive Transformer where
  | pass
  | discard
  /-- Rejects operations, with a detail at the end of the message. -/
  | reject (detail? : Option String)
  | rename (name : String)
  /-- Discards new attributes that are undefined, and rejects operations that define them. -/
  | discardUndefined (names : List String)
  | chain (rules : List Rule) (last? : Option Transformer)
  | apply (transform : Address -> Value -> TransformM Outcome)

def rejectedOperationMessage (t : Target) (a : Address) (operation : String) : String :=
  "Operation '" ++ operation ++ "' against the resource at address '" ++ a.text
    ++ "' is not supported by " ++ t.label ++ " (model version " ++ (t.versionAt a).text ++ ")"

def newAttributesMessage (defined : List String) : String :=
  RejectCheck.defined.message (defined.map fun name => (name, Value.undefined))

/-- Removes new attributes that are undefined: what is left, and the names that are defined. -/
def discardUndefinedFrom : List String -> Value -> Value × List String
  | [], v => (v, [])
  | name :: rest, v =>
      if v.hasDefined name then
        let (v, defined) := discardUndefinedFrom rest v
        (v, name :: defined)
      else
        discardUndefinedFrom rest (v.erase name)

namespace Transformer

/-- Rejects an operation as a whole, with a warning. -/
def rejectOperation (detail? : Option String) (a : Address) (operation : Value) :
    TransformM Outcome := do
  let name ← TransformM.ofValue (Operation.name operation)
  let c ← get
  let message := rejectedOperationMessage c.target a name
  let message :=
    match detail? with
    | some detail => message ++ ": " ++ detail
    | none => message
  TransformM.warn message
  return Outcome.rejected operation message

def rejectNewAttributes (a : Address) (operation : Value) (defined : List String)
    (c : Context) : Outcome :=
  let name := ((operation.get? Operation.nameKey).bind Value.text?).getD ""
  Outcome.rejected operation
    (rejectedAttributesMessage c.target a name (newAttributesMessage defined))

def discardUndefinedAttributes (names : List String) (a : Address) (operation : Value) :
    TransformM Outcome := do
  let name ← TransformM.ofValue (Operation.name operation)
  let c ← get
  if name = Operation.writeAttribute || name = Operation.undefineAttribute then
    let attributeName ← TransformM.ofValue (AttributeDescription.attributeName operation)
    if !names.contains attributeName then
      return Outcome.send operation
    else if name = Operation.undefineAttribute || !operation.hasDefined Operation.valueKey then
      return Outcome.discarded
    else
      return rejectNewAttributes a operation [attributeName] c
  else if name = Operation.add then
    let (reduced, defined) := discardUndefinedFrom names operation
    if defined.isEmpty then
      return Outcome.send reduced
    else
      return rejectNewAttributes a reduced defined c
  else
    return Outcome.send operation

def run : Transformer -> Address -> Value -> TransformM Outcome
  | .pass, _, operation => pure (Outcome.send operation)
  | .discard, _, _ => pure Outcome.discarded
  | .reject detail?, a, operation => rejectOperation detail? a operation
  | .rename name, a, operation => (Rule.rename name).onOperation a operation
  | .discardUndefined names, a, operation => discardUndefinedAttributes names a operation
  | .apply transform, a, operation => transform a operation
  | .chain rules none, a, operation => TransformM.guarded do
      let (outcomes, left?) ← Rule.runAll a rules operation
      match left? with
      | none => return Outcome.chained outcomes
      | some left =>
          if outcomes.isEmpty then
            return Outcome.chained [Outcome.send left]
          else
            return Outcome.chained outcomes
  | .chain rules (some last), a, operation => TransformM.guarded do
      let (outcomes, left?) ← Rule.runAll a rules operation
      match left? with
      | none => return Outcome.chained outcomes
      | some left =>
          let outcome ← run last a left
          return Outcome.chained (outcomes ++ [outcome])

end Transformer
end MixedDomain
