import MixedDomain.Entries.Sorted
import MixedDomain.Json.Basic
import MixedDomain.Version

/-!
# Targets

## The host on an older version

A target is the process that operations and resources are transformed for.  It
has a version of the core model and a version of each subsystem, which may be
older than those of the source.
-/

namespace MixedDomain

/-- The kind of process that a target is. -/
inductive TargetKind where
  | server
  | host
  | domain
  deriving DecidableEq, Inhabited, Repr

def TargetKind.name : TargetKind -> String
  | .server => "server"
  | .host => "host"
  | .domain => "domain"

/-- The process that is transformed for; the versions are in the order of the names. -/
structure Target where
  hostName : String
  coreVersion : ModelVersion
  subsystemVersions : List (String × ModelVersion)
  kind : TargetKind
  deriving DecidableEq, Repr

namespace Target

/-- The version of a subsystem, if the target has it. -/
def subsystemVersion? (name : String) (t : Target) : Option ModelVersion :=
  Entries.get? name t.subsystemVersions

def withSubsystem (name : String) (version : ModelVersion) (t : Target) : Target :=
  { t with subsystemVersions := Entries.insertSorted name version t.subsystemVersions }

def managesIgnoredFrom : ModelVersion :=
  ⟨1, 4, 0⟩

def managesIgnored (t : Target) : Bool :=
  !t.coreVersion.older managesIgnoredFrom

/-- The host and its kind, as messages name them. -/
def label (t : Target) : String :=
  t.kind.name ++ " '" ++ t.hostName ++ "'"

def toJson (t : Target) : Json :=
  .object [
    ("host_name", .string t.hostName),
    ("core_version", .string t.coreVersion.text),
    ("subsystem_versions",
      .object (t.subsystemVersions.map fun entry => (entry.1, .string entry.2.text))),
    ("type", .string t.kind.name)]

end Target
end MixedDomain
