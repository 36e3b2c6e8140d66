import MixedDomain.Config.Basic
import MixedDomain.Config.Error
import MixedDomain.Registry

/-!
# From configurations to registries

## Declaring

The rules of a configuration are turned into the declarations that descriptions
are made from, in a fixed order.  What is contradictory there is an error of the
configuration.

## Validation

Subsystems have distinct names that are not empty, and every subsystem declares a
version or a chain.  Apart from that a configuration is valid when its registry
can be built.
-/

namespace MixedDomain
namespace Config

def DiscardChoice.check : DiscardChoice -> DiscardCheck
  | .always => .always
  | .undefined => .undefined
  | .never => .never
  | .defaultValue => .default

def RejectChoice.check : RejectChoice -> RejectCheck
  | .defined => .defined
  | .undefined => .undefined
  | .expressions => .expressions

/-!
# Attributes
-/

namespace AttributeRule

/-- The checks that discard, in order; the last one counts. -/
def discardChecks (rule : AttributeRule) : List DiscardCheck :=
  (rule.discard?.map DiscardChoice.check).toList
    ++ if rule.discardValues.isEmpty then [] else [.values rule.discardValues false]

/-- The checks that reject, in order. -/
def rejectChecks (rule : AttributeRule) : List RejectCheck :=
  rule.rejects.map RejectChoice.check
    ++ if rule.rejectValues.isEmpty then [] else [.values rule.rejectValues]

/-- The conversions, in order; the last one counts. -/
def conversions (rule : AttributeRule) : List Conversion :=
  (if rule.fillDefault then [.default] else []) ++ (rule.fixed?.map .fixed).toList

/-- Declares a new name, which only a single attribute can have. -/
def declareName (rule : AttributeRule) (ds : AttributeDeclarations) :
    Except DescriptionError AttributeDeclarations :=
  match rule.newName?, rule.names with
  | none, _ => .ok ds
  | some newName, [name] => ds.rename name newName
  | some newName, names =>
      .error (.invalid ("rename '" ++ newName ++ "' needs exactly one attribute, got "
        ++ Text.quoteList names))

def declare (rule : AttributeRule) (ds : AttributeDeclarations) :
    Except DescriptionError AttributeDeclarations :=
  let ds := rule.discardChecks.foldl (fun ds check => ds.discard check rule.names) ds
  let ds := rule.rejectChecks.foldl (fun ds check => ds.reject check rule.names) ds
  let ds := rule.conversions.foldl (fun ds conversion => ds.convert conversion rule.names) ds
  rule.declareName ds

def declareAll (rules : List AttributeRule) (ds : AttributeDeclarations) :
    Except DescriptionError AttributeDeclarations :=
  rules.foldlM (fun ds rule => rule.declare ds) ds

end AttributeRule

/-!
# Operations and resources
-/

def OperationRule.declare (rule : OperationRule) (d : ResourceDeclarations) :
    Except DescriptionError ResourceDeclarations := do
  let o ← d.beginOperation rule.name
  let attributes ← AttributeRule.declareAll rule.attributes o.attributes
  return d.addOperation
    { o with
      attributes
      inherits := rule.inherits
      withholding := rule.withholding
      newName? := rule.newName? }

/-- Begins the declarations about a type of children; one that is withheld is not redirected. -/
def ChildRule.begin (rule : ChildRule) (d : ResourceDeclarations) :
    Except DescriptionError ResourceDeclarations :=
  let redirection? :=
    if rule.withholding = .never then rule.redirect?.map .element else none
  d.beginChild rule.element (.fixed rule.withholding) redirection?

def placementOf? (newAttributes : List String) : Option Placement :=
  if newAttributes.isEmpty then none else some (.discardUndefined newAttributes)

namespace ResourceRules

def declareOwn (attributes : List AttributeRule) (discarded rejected : List String)
    (operations : List OperationRule) (newAttributes : List String) (d : ResourceDeclarations) :
    Except DescriptionError ResourceDeclarations := do
  let d ← d.declareAttributes (AttributeRule.declareAll attributes)
  let d := (d.discardOperations discarded).rejectOperations rejected
  let d ← operations.foldlM (fun d operation => operation.declare d) d
  match placementOf? newAttributes with
  | some placement => return d.place placement
  | none => return d

mutual

def declare : ResourceRules -> ResourceDeclarations ->
    Except DescriptionError ResourceDeclarations
  | .node attributes discarded rejected operations children newAttributes, d => do
      let d ← declareOwn attributes discarded rejected operations newAttributes d
      declareChildren children d

/-- Declares the rules about children; those about a child that is withheld do not count. -/
def declareChildren : List (ChildRule × ResourceRules) -> ResourceDeclarations ->
    Except DescriptionError ResourceDeclarations
  | [], d => .ok d
  | (rule, resource) :: rest, d => do
      let child ← rule.begin d
      let child ←
        match rule.withholding with
        | .never => declare resource child
        | _ => pure child
      declareChildren rest (d.addChild child)

end

end ResourceRules

/-!
# Subsystems
-/

/-- Declares the hops of a chain; hops between the same versions are one. -/
def ChainRules.declare (subsystem : String) (rules : ChainRules) :
    Except DescriptionError ChainDeclarations :=
  rules.hops.foldlM
    (fun chain hop =>
      (hop.resource.declare (chain.hop hop.source hop.target)).map
        fun resource => chain.withHop hop.source hop.target resource)
    (ChainDeclarations.empty subsystem rules.current)

def VersionRules.register (subsystem : String) (r : Registry) (rules : VersionRules) :
    Except DescriptionError Registry :=
  (rules.resource.declare (ResourceDeclarations.ofSubsystem subsystem)).map
    fun resource => r.register subsystem rules.version resource.describe

def SubsystemRules.register (r : Registry) (rules : SubsystemRules) :
    Except DescriptionError Registry := do
  let r ← rules.versions.foldlM (VersionRules.register rules.name) r
  match rules.chain? with
  | none => return r
  | some chain =>
      let declared ← chain.declare rules.name
      r.registerChain declared chain.targets

def registry (config : Config) : Except ConfigError Registry :=
  (config.subsystems.foldlM SubsystemRules.register Registry.empty).mapError .declaration

/-- Refuses a subsystem without name or versions, and one that has been declared before. -/
def checkSubsystem (before : List String) (rules : SubsystemRules) : Except ConfigError Unit :=
  if rules.name.isEmpty then
    .error (.invalid "Subsystem name must not be empty")
  else if before.contains rules.name then
    .error (.invalid ("Subsystem '" ++ rules.name ++ "' is declared more than once"))
  else if rules.versions.isEmpty && rules.chain?.isNone then
    .error (.invalid ("Subsystem '" ++ rules.name ++ "' declares no versions"))
  else
    .ok ()

/-- Checks subsystems in order, given the names of those before. -/
def checkSubsystems (before : List String) : List SubsystemRules -> Except ConfigError Unit
  | [] => .ok ()
  | rules :: rest => do
      checkSubsystem before rules
      checkSubsystems (rules.name :: before) rest

def validate (config : Config) : Except ConfigError Unit := do
  checkSubsystems [] config.subsystems
  let _ ← config.registry
  return ()

/-!
# Targets
-/

def defaultHost : String :=
  "legacy-host"

/-- What is said about the target apart from the configuration. -/
structure TargetChoice where
  host? : Option String
  coreVersion? : Option ModelVersion
  subsystemVersions : List (String × ModelVersion)
  deriving Inhabited

def TargetChoice.change (choice : TargetChoice) (t : Target) : Target :=
  choice.subsystemVersions.foldl (fun t entry => t.withSubsystem entry.1 entry.2)
    { t with
      hostName := choice.host?.getD t.hostName
      coreVersion := choice.coreVersion?.getD t.coreVersion }

/-- The target of a configuration: without one there must be a version of the core model. -/
def targetFor (config : Config) (choice : TargetChoice) : Except ConfigError Target :=
  match config.target?, choice.coreVersion? with
  | some t, _ => .ok (choice.change t)
  | none, some version => .ok (choice.change ⟨defaultHost, version, [], .host⟩)
  | none, none =>
      .error (.invalid
        "No target: declare `target` in the config or pass --core-version")

end Config
end MixedDomain
