import MixedDomain.Config.Basic
import MixedDomain.Registration.Encoding
import MixedDomain.Address.Text
import MixedDomain.Version.Encoding

/-!
# Writing configurations

## All fields

A configuration is written with all its fields, also those that have their
default; what is missing is null.
-/

namespace MixedDomain
namespace Config

def AttributeRule.toJson (rule : AttributeRule) : Json :=
  .object [
    ("names", Json.ofStrings rule.names),
    ("discard", Json.ofOption (fun choice => .string choice.name) rule.discard?),
    ("discard_values", Json.ofList Value.toJson rule.discardValues),
    ("reject", Json.ofStrings (rule.rejects.map RejectChoice.name)),
    ("reject_values", Json.ofList Value.toJson rule.rejectValues),
    ("fill_default", .bool rule.fillDefault),
    ("hardcoded", Json.ofOption Value.toJson rule.fixed?),
    ("rename", Json.ofOption .string rule.newName?)]

def OperationRule.toJson (rule : OperationRule) : Json :=
  .object [
    ("name", .string rule.name),
    ("policy", .string rule.withholding.name),
    ("inherit", .bool rule.inherits),
    ("rename", Json.ofOption .string rule.newName?),
    ("attributes", Json.ofList AttributeRule.toJson rule.attributes)]

/-- The document of a rule about children, with the document of the rules about them. -/
def ChildRule.toJson (rule : ChildRule) (resource : Json) : Json :=
  .object [
    ("element", .string rule.element.text),
    ("policy", .string rule.withholding.name),
    ("redirect", Json.ofOption (fun e => .string e.text) rule.redirect?),
    ("resource", resource)]

namespace ResourceRules

mutual

def toJson : ResourceRules -> Json
  | .node attributes discarded rejected operations children newAttributes =>
      .object [
        ("attributes", Json.ofList AttributeRule.toJson attributes),
        ("discard_operations", Json.ofStrings discarded),
        ("reject_operations", Json.ofStrings rejected),
        ("operations", Json.ofList OperationRule.toJson operations),
        ("children", .array (childrenToJson children)),
        ("discard_undefined_attributes", Json.ofStrings newAttributes)]

def childrenToJson : List (ChildRule × ResourceRules) -> List Json
  | [] => []
  | (rule, resource) :: rest => rule.toJson resource.toJson :: childrenToJson rest

end

end ResourceRules

def VersionRules.toJson (rules : VersionRules) : Json :=
  .object [("version", rules.version.toJson), ("resource", rules.resource.toJson)]

def HopRules.toJson (rules : HopRules) : Json :=
  .object [
    ("from", rules.source.toJson),
    ("to", rules.target.toJson),
    ("resource", rules.resource.toJson)]

def ChainRules.toJson (rules : ChainRules) : Json :=
  .object [
    ("current_version", rules.current.toJson),
    ("targets", Json.ofList ModelVersion.toJson rules.targets),
    ("hops", Json.ofList HopRules.toJson rules.hops)]

def SubsystemRules.toJson (rules : SubsystemRules) : Json :=
  .object [
    ("name", .string rules.name),
    ("versions", Json.ofList VersionRules.toJson rules.versions),
    ("chain", Json.ofOption ChainRules.toJson rules.chain?)]

def registrationToJson (entry : Address × ResourceRegistration) : Json :=
  .object (("address", .string entry.1.text) :: entry.2.toMembers)

def toJson (config : Config) : Json :=
  .object [
    ("target", Json.ofOption Target.toJson config.target?),
    ("registrations", Json.ofList registrationToJson config.registrations),
    ("subsystems", Json.ofList SubsystemRules.toJson config.subsystems)]

end Config
end MixedDomain
