import MixedDomain.Config.Declarations
import MixedDomain.Registration.Encoding
import MixedDomain.Address.Text
import MixedDomain.Json.Printer
import MixedDomain.Version.Encoding
import MixedDomain.Yaml.Reader

/-!
# Reading configurations

## Records

A configuration is a YAML document, and every part of it is a record.  Almost all
fields have a default; those that a part cannot do without are required.  Any
scalar will do for a text.  A configuration that has been read is valid.

## Registrations

Besides its address, a registration is read as the JSON document that it stands
for: all of it must stand for one, and a number is no text there.
-/

namespace MixedDomain

variable {document : Type} [Document document]

def Address.ofDocument? (d : document) : Option Address :=
  (Document.text? d).bind fun s => (Address.ofText s).toOption

def PathElement.ofDocument? (d : document) : Option PathElement :=
  (Document.text? d).bind fun s => (PathElement.ofText s).toOption

def Withholding.ofDocument? : document -> Option Withholding :=
  Record.named? [.never, .silent, .rejectAndWarn] Withholding.name

def Value.ofYaml? (yaml : Yaml) : Option Value :=
  yaml.toJson?.bind Value.ofJson?

def ModelVersion.ofYaml? (yaml : Yaml) : Option ModelVersion :=
  yaml.toJson?.bind ModelVersion.ofJson?

def Target.versionsOfYaml? (yaml : Yaml) : Option (List (String × ModelVersion)) := do
  let members ← yaml.members?
  let versions ← members.mapM fun member =>
    (ModelVersion.ofYaml? member.2).map fun version => (member.1, version)
  return Entries.sorted versions

def Target.ofYaml? (yaml : Yaml) : Option Target := do
  let members ← yaml.members?
  let hostName ← Record.required? Yaml.text? "host_name" members
  let coreVersion ← Record.required? ModelVersion.ofYaml? "core_version" members
  let subsystemVersions ←
    Record.defaulted? [] Target.versionsOfYaml? "subsystem_versions" members
  let kind ← Record.defaulted? .host (Record.named? [.server, .host, .domain] TargetKind.name)
    "type" members
  return { hostName, coreVersion, subsystemVersions, kind }

namespace Config

def DiscardChoice.ofYaml? : Yaml -> Option DiscardChoice :=
  Record.named? [.always, .undefined, .never, .defaultValue] DiscardChoice.name

def RejectChoice.ofYaml? : Yaml -> Option RejectChoice :=
  Record.named? [.defined, .undefined, .expressions] RejectChoice.name

def AttributeRule.ofYaml? (yaml : Yaml) : Option AttributeRule := do
  let members ← yaml.members?
  let names ← Record.list? Yaml.text? "names" members
  let discard? ← Record.optional? DiscardChoice.ofYaml? "discard" members
  let discardValues ← Record.list? Value.ofYaml? "discard_values" members
  let rejects ← Record.list? RejectChoice.ofYaml? "reject" members
  let rejectValues ← Record.list? Value.ofYaml? "reject_values" members
  let fillDefault ← Record.defaulted? false Yaml.truth? "fill_default" members
  let fixed? ← Record.optional? Value.ofYaml? "hardcoded" members
  let newName? ← Record.optional? Yaml.text? "rename" members
  return { names, discard?, discardValues, rejects, rejectValues, fillDefault, fixed?, newName? }

def OperationRule.ofYaml? (yaml : Yaml) : Option OperationRule := do
  let members ← yaml.members?
  let name ← Record.required? Yaml.text? "name" members
  let withholding ← Record.defaulted? .never Withholding.ofDocument? "policy" members
  let inherits ← Record.defaulted? false Yaml.truth? "inherit" members
  let newName? ← Record.optional? Yaml.text? "rename" members
  let attributes ← Record.list? AttributeRule.ofYaml? "attributes" members
  return { name, withholding, inherits, newName?, attributes }

def ChildRule.ofMembers? (members : List (String × Yaml)) : Option ChildRule := do
  let element ← Record.required? PathElement.ofDocument? "element" members
  let withholding ← Record.defaulted? .never Withholding.ofDocument? "policy" members
  let redirect? ← Record.optional? PathElement.ofDocument? "redirect" members
  return { element, withholding, redirect? }

namespace ResourceRules

/-- The rules about a resource among members, with those about its children. -/
def ofMembers? (members : List (String × Yaml)) (children : List (ChildRule × ResourceRules)) :
    Option ResourceRules := do
  let attributes ← Record.list? AttributeRule.ofYaml? "attributes" members
  let discardedOperations ← Record.list? Yaml.text? "discard_operations" members
  let rejectedOperations ← Record.list? Yaml.text? "reject_operations" members
  let operations ← Record.list? OperationRule.ofYaml? "operations" members
  let newAttributes ← Record.list? Yaml.text? "discard_undefined_attributes" members
  return { attributes, discardedOperations, rejectedOperations, operations, children, newAttributes }

mutual

def ofYaml? : Yaml -> Option ResourceRules
  | .mapping pairs => do
      let members ← Yaml.membersOfPairs? pairs
      let _ ← Record.member? "children" members
      let children ← childrenAmong? pairs
      ofMembers? members children
  | yaml => do
      let members ← yaml.members?
      ofMembers? members []

/-- The rules about children among pairs, no rules if they are missing. -/
def childrenAmong? : List (Yaml × Yaml) -> Option (List (ChildRule × ResourceRules))
  | [] => some []
  | (key, value) :: rest =>
      if key.text? = some "children" then childrenOfYaml? value else childrenAmong? rest

def childrenOfYaml? : Yaml -> Option (List (ChildRule × ResourceRules))
  | .sequence items => childrenOfItems? items
  | yaml => yaml.items?.map fun _ => []

def childrenOfItems? : List Yaml -> Option (List (ChildRule × ResourceRules))
  | [] => some []
  | item :: rest => do
      let child ← childOfYaml? item
      let others ← childrenOfItems? rest
      return child :: others

/-- The rule about children of a document, with the rules about the resources. -/
def childOfYaml? : Yaml -> Option (ChildRule × ResourceRules)
  | .mapping pairs => do
      let members ← Yaml.membersOfPairs? pairs
      let rule ← ChildRule.ofMembers? members
      let _ ← Record.member? "resource" members
      let resource ← resourceAmong? pairs
      return (rule, resource)
  | _ => none

/-- The rules about a resource among pairs, no rules if they are missing. -/
def resourceAmong? : List (Yaml × Yaml) -> Option ResourceRules
  | [] => some empty
  | (key, value) :: rest =>
      if key.text? = some "resource" then ofYaml? value else resourceAmong? rest

end

end ResourceRules

def resource? : List (String × Yaml) -> Option ResourceRules :=
  Record.defaulted? ResourceRules.empty ResourceRules.ofYaml? "resource"

def VersionRules.ofYaml? (yaml : Yaml) : Option VersionRules := do
  let members ← yaml.members?
  let version ← Record.required? ModelVersion.ofYaml? "version" members
  let resource ← resource? members
  return { version, resource }

def HopRules.ofYaml? (yaml : Yaml) : Option HopRules := do
  let members ← yaml.members?
  let source ← Record.required? ModelVersion.ofYaml? "from" members
  let target ← Record.required? ModelVersion.ofYaml? "to" members
  let resource ← resource? members
  return { source, target, resource }

def ChainRules.ofYaml? (yaml : Yaml) : Option ChainRules := do
  let members ← yaml.members?
  let current ← Record.required? ModelVersion.ofYaml? "current_version" members
  let targets ← Record.required? (Record.listOf? ModelVersion.ofYaml?) "targets" members
  let hops ← Record.required? (Record.listOf? HopRules.ofYaml?) "hops" members
  return { current, targets, hops }

def SubsystemRules.ofYaml? (yaml : Yaml) : Option SubsystemRules := do
  let members ← yaml.members?
  let name ← Record.required? Yaml.text? "name" members
  let versions ← Record.list? VersionRules.ofYaml? "versions" members
  let chain? ← Record.optional? ChainRules.ofYaml? "chain" members
  return { name, versions, chain? }

def addressKey : String :=
  "address"

def registrationOfYaml? (yaml : Yaml) : Option (Address × ResourceRegistration) := do
  let members ← yaml.members?
  let a ← Record.required? Address.ofDocument? addressKey members
  let others ← (members.filter fun member => member.1 != addressKey).mapM fun member =>
    member.2.toJson?.map fun json => (member.1, json)
  let registration ← ResourceRegistration.ofMembers? others
  return (a, registration)

/-- The configuration of a document, which need not be valid. -/
def ofYaml? (yaml : Yaml) : Option Config := do
  let members ← yaml.members?
  let target? ← Record.optional? Target.ofYaml? "target" members
  let registrations ← Record.list? registrationOfYaml? "registrations" members
  let subsystems ← Record.list? SubsystemRules.ofYaml? "subsystems" members
  return { target?, registrations, subsystems }

def ofText (s : String) : Except ConfigError Config :=
  match (Yaml.read? s).bind ofYaml? with
  | none => .error .malformed
  | some config => config.validate.map fun _ => config

def ofJson (json : Json) : Except ConfigError Config :=
  ofText json.compact

end Config
end MixedDomain
