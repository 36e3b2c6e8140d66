import MixedDomain.Attribute.Description
import MixedDomain.Outcome

/-!
# Rules

## Phases

A rule applies descriptions of attributes to an operation, or to the model of a
resource, in four phases: attributes are discarded, rejected, converted and at
last renamed.  An attribute that was discarded takes part in no later phase but
the last.  Rejections are decided by the values before conversion.

## Operations on one attribute

Writing an attribute and making it undefined name the attribute in a parameter;
the rules for these operations apply the one description of that name.
-/

namespace MixedDomain

/-- The version that the target has at an address: the one of the subsystem, if it is known. -/
def Target.versionAt (a : Address) (t : Target) : ModelVersion :=
  ((Address.subsystem? a).bind fun name => t.subsystemVersion? name).getD t.coreVersion

def rejectedAttributesMessage (t : Target) (a : Address) (operation details : String) : String :=
  "Operation '" ++ operation ++ "' at '" ++ a.text ++ "' was rejected by " ++ t.label
    ++ " (model version " ++ (t.versionAt a).text ++ "): " ++ details

def rejectedResourceMessage (t : Target) (a : Address) (details : String) : String :=
  "Resource at '" ++ a.text ++ "' is rejected by " ++ t.label ++ ": " ++ details

namespace AttributeDescription

/-!
# The phases
-/

/-- The names of the parameters that are discarded; all are decided by the operation as it came. -/
def discardedParameters (ds : List AttributeDescription) (a : Address) (operation : Value)
    (c : Context) : List String :=
  (ds.filter fun d => d.discardsParameter a (operation.getOrUndefined d.name) operation c).map name

def eraseAll (names : List String) (v : Value) : Value :=
  names.foldl (fun v name => v.erase name) v

/-- Discards attributes of a model one after the other: the model then, and their names. -/
def discardFromModel (a : Address) (c : Context) :
    List AttributeDescription -> Value × List String -> Value × List String
  | [], state => state
  | d :: rest, (model, discarded) =>
      if d.discardsAttribute a (model.getOrUndefined d.name) c then
        discardFromModel a c rest (model.erase d.name, discarded ++ [d.name])
      else
        discardFromModel a c rest (model, discarded)

def remaining (ds : List AttributeDescription) (discarded : List String) :
    List AttributeDescription :=
  ds.filter fun d => !discarded.contains d.name

def rejections (ds : List AttributeDescription) (a : Address) (v : Value) (c : Context) :
    Rejections :=
  ds.foldl (fun rejections d => d.addRejections a (v.getOrUndefined d.name) c rejections) []

/-- Converts one attribute; one that is missing is added if the conversion makes a value. -/
def convertIn (d : AttributeDescription) (a : Address) (v : Value) : TransformM Value := do
  if d.conversion?.isSome then
    let value ← d.convert a (v.getOrUndefined d.name)
    if v.has d.name || value.isDefined then
      TransformM.ofValue (v.set d.name value)
    else
      return v
  else
    return v

def convertAll (a : Address) : List AttributeDescription -> Value -> TransformM Value
  | [], v => pure v
  | d :: rest, v => do
      let v ← d.convertIn a v
      convertAll a rest v

/-- Moves the value under a name to another name; it goes to the end if that name is new. -/
def moveEntry (v : Value) (name newName : String) : Except ValueError Value :=
  match v.entry? name with
  | some value => (v.erase name).set newName value
  | none => .ok v

def renameAll : List AttributeDescription -> Value -> Except ValueError Value
  | [], v => .ok v
  | d :: rest, v =>
      match d.newName? with
      | some newName => (moveEntry v d.name newName).bind (renameAll rest)
      | none => renameAll rest v

/-!
# Whole operations and models
-/

/-- Sends an operation, or rejects it with the description of a failure. -/
def finish (operation : Value) : Option String -> Outcome
  | some description => Outcome.rejected operation description
  | none => Outcome.send operation

def transformParameters (ds : List AttributeDescription) (a : Address) (operation : Value) :
    TransformM Outcome := do
  let c ← get
  let discarded := discardedParameters ds a operation c
  let reduced := eraseAll discarded operation
  let kept := remaining ds discarded
  let rejections := rejections kept a reduced c
  let converted ← convertAll a kept reduced
  let renamed ← TransformM.ofValue (renameAll ds converted)
  if rejections.isEmpty then
    return Outcome.send renamed
  else
    let name ← TransformM.ofValue (Operation.name operation)
    let c ← get
    return Outcome.rejected renamed (rejectedAttributesMessage c.target a name rejections.messages)

/-- Applies descriptions to the model of a resource; rejections are warnings. -/
def transformModel (ds : List AttributeDescription) (a : Address) (model : Value) :
    TransformM Value := do
  let c ← get
  let (reduced, discarded) := discardFromModel a c ds (model, [])
  let kept := remaining ds discarded
  let rejections := rejections kept a reduced c
  if !rejections.isEmpty then
    TransformM.warn (rejectedResourceMessage c.target a rejections.messages)
  let converted ← convertAll a kept reduced
  TransformM.ofValue (renameAll ds converted)

/-!
# Operations on one attribute
-/

/-- What becomes of the attribute that an operation names. -/
structure NamedAttribute where
  operation : Value
  value : Value
  rejection? : Option String

/-- Applies a description to an operation on the attribute; nothing if it is discarded. -/
def transformNamed (d : AttributeDescription) (a : Address) (operation value : Value) :
    TransformM (Option NamedAttribute) := do
  let c ← get
  if d.discardsParameter a value operation c then
    return none
  else
    let rejections := rejections [d] a (.object [(d.name, value)]) c
    let name := ((operation.get? Operation.nameKey).bind Value.text?).getD ""
    let rejection? :=
      if rejections.isEmpty then none
      else some (rejectedAttributesMessage c.target a name rejections.messages)
    let converted ← d.convert a value
    match d.newName? with
    | some newName =>
        let renamed ← TransformM.ofValue (operation.set Operation.attributeKey (.string newName))
        return some ⟨renamed, converted, rejection?⟩
    | none => return some ⟨operation, converted, rejection?⟩

def attributeName (operation : Value) : Except ValueError String := do
  let name ← operation.require Operation.attributeKey
  name.asText

def transformWrite (ds : List AttributeDescription) (a : Address) (operation : Value) :
    TransformM Outcome := do
  let name ← TransformM.ofValue (attributeName operation)
  match find? name ds with
  | none => return Outcome.send operation
  | some d =>
      match ← d.transformNamed a operation (operation.getOrUndefined Operation.valueKey) with
      | none => return Outcome.discarded
      | some named =>
          let written ← TransformM.ofValue (named.operation.set Operation.valueKey named.value)
          return finish written named.rejection?

/-- Applies descriptions to an operation that makes an attribute undefined; if the conversion makes
a value, the attribute is written instead. -/
def transformUndefine (ds : List AttributeDescription) (a : Address) (operation : Value) :
    TransformM Outcome := do
  let name ← TransformM.ofValue (attributeName operation)
  match find? name ds with
  | none => return Outcome.send operation
  | some d =>
      match ← d.transformNamed a operation .undefined with
      | none => return Outcome.discarded
      | some named =>
          if named.value.isDefined then
            let write ← TransformM.ofValue
              (named.operation.set Operation.nameKey (.string Operation.writeAttribute))
            let written ← TransformM.ofValue (write.set Operation.valueKey named.value)
            return finish written named.rejection?
          else
            return finish named.operation named.rejection?

end AttributeDescription

/-- One step of the transformation of an operation. -/
inductive Rule where
  | parameters (descriptions : List AttributeDescription)
  | write (descriptions : List AttributeDescription)
  | undefine (descriptions : List AttributeDescription)
  | rename (name : String)

namespace Rule

def forOperation (name : String) (ds : List AttributeDescription) : Rule :=
  if name = Operation.writeAttribute then .write ds
  else if name = Operation.undefineAttribute then .undefine ds
  else .parameters ds

def onOperation (rule : Rule) (a : Address) (operation : Value) : TransformM Outcome :=
  match rule with
  | .parameters ds => AttributeDescription.transformParameters ds a operation
  | .write ds => AttributeDescription.transformWrite ds a operation
  | .undefine ds => AttributeDescription.transformUndefine ds a operation
  | .rename name => do
      let renamed ← TransformM.ofValue (operation.set Operation.nameKey (.string name))
      return Outcome.send renamed

def onModel (rule : Rule) (a : Address) (model : Value) : TransformM Value :=
  match rule with
  | .parameters ds => AttributeDescription.transformModel ds a model
  | .write ds => AttributeDescription.transformModel ds a model
  | .undefine ds => AttributeDescription.transformModel ds a model
  | .rename _ => pure model

/-- Applies rules to an operation as long as there is one: the outcomes, and what is left. -/
def runAll (a : Address) : List Rule -> Value -> TransformM (List Outcome × Option Value)
  | [], operation => return ([], some operation)
  | rule :: rest, operation => do
      let outcome ← rule.onOperation a operation
      match outcome.operation? with
      | none => return ([outcome], none)
      | some next =>
          let (outcomes, last) ← runAll a rest next
          return (outcome :: outcomes, last)

def runAllOnModel (a : Address) : List Rule -> Value -> TransformM Value
  | [], model => pure model
  | rule :: rest, model => do
      let model ← rule.onModel a model
      runAllOnModel a rest model

end Rule
end MixedDomain
