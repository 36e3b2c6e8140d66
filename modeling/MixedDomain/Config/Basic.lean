import MixedDomain.Description.Basic
import MixedDomain.Target

/-!
# Configurations

## Declarations as data

A configuration names the target, the registrations of resource types and what
is declared about the subsystems.  It knows only the checks and conversions that
have a name, so that all of it can be written down.

## Rules

Rules about attributes belong to a resource or to an operation.  Rules about
resources form a tree, as the resources do.
-/

namespace MixedDomain

def Withholding.name : Withholding -> String
  | .never => "never"
  | .silent => "silent"
  | .rejectAndWarn => "reject-and-warn"

namespace Config

/-- When attributes are discarded. -/
inductive DiscardChoice where
  | always
  | undefined
  | never
  | defaultValue
  deriving DecidableEq, Inhabited, Repr

def DiscardChoice.name : DiscardChoice -> String
  | .always => "always"
  | .undefined => "undefined"
  | .never => "never"
  | .defaultValue => "default-value"

/-- When attributes are rejected. -/
inductive RejectChoice where
  | defined
  | undefined
  | expressions
  deriving DecidableEq, Inhabited, Repr

def RejectChoice.name : RejectChoice -> String
  | .defined => "defined"
  | .undefined => "undefined"
  | .expressions => "expressions"

/-- What happens to some attributes. -/
structure AttributeRule where
  names : List String
  discard? : Option DiscardChoice
  discardValues : List Value
  rejects : List RejectChoice
  rejectValues : List Value
  fillDefault : Bool
  /-- The value that is always sent. -/
  fixed? : Option Value
  /-- The name on the target, for a single attribute only. -/
  newName? : Option String
  deriving Inhabited

/-- What happens to one operation. -/
structure OperationRule where
  name : String
  withholding : Withholding
  inherits : Bool
  newName? : Option String
  attributes : List AttributeRule
  deriving Inhabited

/-- What happens to one type of children. -/
structure ChildRule where
  element : PathElement
  withholding : Withholding
  /-- The element on the target; a wildcard keeps the value. -/
  redirect? : Option PathElement
  deriving DecidableEq, Inhabited

/-- What happens to a resource and those below it. -/
structure ResourceRules where node ::
  attributes : List AttributeRule
  discardedOperations : List String
  rejectedOperations : List String
  operations : List OperationRule
  children : List (ChildRule × ResourceRules)
  newAttributes : List String
  deriving Inhabited

def ResourceRules.empty : ResourceRules :=
  .node [] [] [] [] [] []

/-- A subsystem in one older version. -/
structure VersionRules where
  version : ModelVersion
  resource : ResourceRules
  deriving Inhabited

/-- A subsystem from one version to an older one. -/
structure HopRules where
  source : ModelVersion
  target : ModelVersion
  resource : ResourceRules
  deriving Inhabited

/-- The hops from the current version of a subsystem, and the versions to reach. -/
structure ChainRules where
  current : ModelVersion
  targets : List ModelVersion
  hops : List HopRules
  deriving Inhabited

/-- All about one subsystem. -/
structure SubsystemRules where
  name : String
  versions : List VersionRules
  chain? : Option ChainRules
  deriving Inhabited

end Config

/-- A configuration. -/
structure Config where
  target? : Option Target
  registrations : List (Address × ResourceRegistration)
  subsystems : List Config.SubsystemRules

namespace Config

def empty : Config :=
  ⟨none, [], []⟩

instance : Inhabited Config :=
  ⟨empty⟩

/-- The model of the source, with the registrations that are declared. -/
def model (config : Config) (root : Resource) : ManagementModel :=
  config.registrations.foldl (fun m entry => m.register entry.1 entry.2) (ManagementModel.ofRoot root)

end Config
end MixedDomain
