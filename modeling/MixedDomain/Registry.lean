import MixedDomain.Description.Chain
import MixedDomain.Hop.Resource

/-!
# The registry of transformers

## Look-up

The hops from the current version of a subsystem to an older one are registered
under the name of the subsystem and that version.  The version that a target has
decides which hops apply; without hops everything is sent as it is.

## Operations

A composite operation is transformed step by step, an operation that only reads
is sent as it is, and any other goes through the hops in order, each transforming
what the one before sends.

## Resources

A resource goes through the hops as well.  Below the root only subsystems are
transformed.
-/

namespace MixedDomain

/-- Hops by the version that they lead to, in the order of versions. -/
abbrev VersionHops :=
  List (ModelVersion × List Hop)

/-- The hops of all subsystems, in the order of their names. -/
structure Registry where
  subsystems : List (String × VersionHops)

namespace Registry

def empty : Registry :=
  ⟨[]⟩

/-- Replaces the hops to a version, or puts them where the order of versions wants them. -/
def insertVersion (version : ModelVersion) (hops : List Hop) : VersionHops -> VersionHops
  | [] => [(version, hops)]
  | (v, old) :: rest =>
      match version.compare v with
      | .lt => (version, hops) :: (v, old) :: rest
      | .eq => (version, hops) :: rest
      | .gt => (v, old) :: insertVersion version hops rest

def versions (subsystem : String) (r : Registry) : VersionHops :=
  (Entries.get? subsystem r.subsystems).getD []

def registerHops (subsystem : String) (version : ModelVersion) (hops : List Hop) (r : Registry) :
    Registry :=
  { r with
    subsystems := Entries.insertSorted subsystem
      (insertVersion version hops (r.versions subsystem)) r.subsystems }

def register (subsystem : String) (version : ModelVersion) (tree : DescriptionTree)
    (r : Registry) : Registry :=
  r.registerHops subsystem version [Hop.ofTree tree]

/-- Registers the hops that trees describe to a version; to the current version there are none. -/
def registerTrees (subsystem : String) (r : Registry)
    (entry : ModelVersion × List DescriptionTree) : Registry :=
  if entry.2.isEmpty then r else r.registerHops subsystem entry.1 (entry.2.map Hop.ofTree)

def registerChained (chain : ChainDeclarations) (targets : List ModelVersion) :
    ExceptT DescriptionError (StateM Registry) Unit := do
  let chains ← ExceptT.mk (pure (chain.describe targets))
  chains.forM fun entry => modify fun r => registerTrees chain.subsystem r entry

def registerChain (chain : ChainDeclarations) (targets : List ModelVersion) (r : Registry) :
    Except DescriptionError Registry :=
  let (ending, left) := (registerChained chain targets).run.run r
  ending.map fun _ => left

def hopsTo? (subsystem : String) (version : ModelVersion) (r : Registry) : Option (List Hop) :=
  ((r.versions subsystem).find? fun entry => entry.1 == version).map Prod.snd

def isRegistered (subsystem : String) (version : ModelVersion) (r : Registry) : Bool :=
  (r.hopsTo? subsystem version).isSome

def registrations (r : Registry) : List (String × List ModelVersion) :=
  r.subsystems.map fun entry => (entry.1, entry.2.map Prod.fst)

theorem run_forM_registerTrees (subsystem : String)
    (chains : List (ModelVersion × List DescriptionTree)) (r : Registry) :
    (chains.forM fun entry => modify fun r => registerTrees subsystem r entry :
      ExceptT DescriptionError (StateM Registry) PUnit).run.run r =
      (.ok (), chains.foldl (registerTrees subsystem) r) := by
  induction chains generalizing r with
  | nil =>
      rfl
  | cons entry rest ih =>
      exact ih (registerTrees subsystem r entry)

/-- The registry changes when all hops are described, and stays as it is after an error. -/
theorem run_registerChained (chain : ChainDeclarations) (targets : List ModelVersion)
    (r : Registry) :
    (registerChained chain targets).run.run r =
      match chain.describe targets with
      | .ok chains => (.ok (), chains.foldl (registerTrees chain.subsystem) r)
      | .error e => (.error e, r) := by
  unfold registerChained
  cases chain.describe targets with
  | error e => rfl
  | ok chains => exact run_forM_registerTrees chain.subsystem chains r

theorem registerChain_eq (chain : ChainDeclarations) (targets : List ModelVersion) (r : Registry) :
    r.registerChain chain targets = (chain.describe targets).map fun chains =>
      chains.foldl (registerTrees chain.subsystem) r := by
  rw [registerChain, run_registerChained]
  cases chain.describe targets <;> rfl

def hops? (t : Target) (a : Address) (r : Registry) : Option (List Hop) := do
  let subsystem ← Address.subsystem? a
  let version ← t.subsystemVersion? subsystem
  r.hopsTo? subsystem version

/-!
# Operations
-/

def runHops : List Hop -> Address -> Value -> TransformM (List Outcome)
  | [], _, _ => return []
  | hop :: rest, a, operation => do
      let outcome ← hop.transformOperation a operation
      match outcome.operation? with
      | none => return [outcome]
      | some next =>
          let target ← TransformM.ofValue (Operation.address next)
          let outcomes ← runHops rest target next
          return outcome :: outcomes

def applyHops (hops : List Hop) (a : Address) (operation : Value) : TransformM Outcome := do
  match ← runHops hops a operation with
  | [only] => return only
  | outcomes => return Outcome.chained outcomes

def transformSimple (r : Registry) (name : String) (operation : Value) : TransformM Outcome := do
  if Operation.isReadOnly name then
    return Outcome.send operation
  else
    let a ← TransformM.ofValue (Operation.address operation)
    let c ← get
    match r.hops? c.target a with
    | none => return Outcome.send operation
    | some hops => TransformM.movedTo a (applyHops hops a operation)

mutual

def transformOperation (r : Registry) : Value -> TransformM Outcome
  | .object entries => do
      let operation := Value.object entries
      let name ← TransformM.ofValue (Operation.name operation)
      if name = Operation.composite then
        let outcomes ← transformStepsEntry r entries
        TransformM.ofValue (Outcome.composite (operation.erase Operation.stepsKey) outcomes)
      else
        transformSimple r name operation
  | operation => do
      let name ← TransformM.ofValue (Operation.name operation)
      if name = Operation.composite then
        TransformM.ofValue (Outcome.composite operation [])
      else
        transformSimple r name operation

def transformStepsEntry (r : Registry) : List (String × Value) -> TransformM (List Outcome)
  | [] => return []
  | (key, value) :: rest =>
      if key = Operation.stepsKey then transformSteps r value else transformStepsEntry r rest

def transformSteps (r : Registry) : Value -> TransformM (List Outcome)
  | .list items => transformItems r items
  | v => throw (.value (.conversion v.kind .list))

/-- The outcomes of steps, in order. -/
def transformItems (r : Registry) : List Value -> TransformM (List Outcome)
  | [] => return []
  | step :: rest => do
      let outcome ← transformOperation r step
      let outcomes ← transformItems r rest
      return outcome :: outcomes

end

/-!
# Resources
-/

def transformByHops : List Hop -> Address -> Resource -> TransformM (Option Resource)
  | [], _, resource => return some resource
  | hop :: rest, a, resource => do
      match ← hop.transformResource a resource with
      | none => return none
      | some transformed => transformByHops rest (hop.targetOf a) transformed

/-- Transforms the resource at an address; nothing if it is withheld. -/
def transformResource (r : Registry) (a : Address) (resource : Resource) :
    TransformM (Option Resource) := do
  let c ← get
  match r.hops? c.target a with
  | none => return some resource
  | some hops => transformByHops hops a resource

/-- Transforms the subsystems among children of the root, and copies all others. -/
def transformChildren (r : Registry) :
    List (PathElement × Resource) -> TransformM (List (PathElement × Resource))
  | [] => return []
  | (e, child) :: rest => do
      let transformed ←
        if e.key = Address.subsystemKey then r.transformResource [e] child
        else pure (some child)
      let others ← transformChildren r rest
      return (transformed.map fun child => (e, child)).toList ++ others

def transformRoot (r : Registry) (root : Resource) : TransformM Resource := do
  let children ← transformChildren r root.children
  return Resource.ofChildren root.model children

def hopAddresses : List Hop -> Address -> List Address
  | [], a => [a]
  | hop :: rest, a => a :: hopAddresses rest (hop.targetOf a)

end Registry
end MixedDomain
