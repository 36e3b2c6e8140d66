import MixedDomain.CommandLine.Basic
import MixedDomain.Registry
import MixedDomain.Resource.Encoding
import MixedDomain.Value.Encoding

/-!
# Reports

## What is reported

A report says for which host something was transformed, what is left to be sent,
whether it is discarded or rejected, and which warnings there were.  No target is
asked, so that a rejection is decided by an undefined result.
-/

namespace MixedDomain

/-- What came of a transformation. -/
structure Report where
  host : String
  operation? : Option Value
  resource? : Option Value
  isDiscarded : Bool
  rejection? : Option String
  warnings : List String

namespace Report

/-- What is said of a rejection without description. -/
def defaultRejection : String :=
  "Operation rejected"

/-- The report about an operation, given the context afterwards. -/
def ofOutcome (outcome : Outcome) (c : Context) : Report :=
  let (isRejected, decided) := outcome.reject .undefined
  { host := c.target.hostName
    operation? := outcome.operation?
    resource? := none
    isDiscarded := outcome.isDiscarded
    rejection? := if isRejected then some (decided.description?.getD defaultRejection) else none
    warnings := c.warnings }

/-- The report about a resource, given the context afterwards. -/
def ofResource (resource? : Option Resource) (c : Context) : Report :=
  { host := c.target.hostName
    operation? := none
    resource? := resource?.map Resource.toValue
    isDiscarded := resource?.isNone
    rejection? := none
    warnings := c.warnings }

/-- A member that is left out if it is missing. -/
def optionalMember {item : Type} (key : String) (write : item -> Json) (x : Option item) :
    List (String × Json) :=
  (x.map fun x => (key, write x)).toList

def toJson (r : Report) : Json :=
  .object (
    [("host", .string r.host)]
      ++ optionalMember "operation" Value.toJson r.operation?
      ++ optionalMember "resource" Value.toJson r.resource?
      ++ [("discarded", .bool r.isDiscarded)]
      ++ optionalMember "rejected" .string r.rejection?
      ++ [("warnings", Json.ofStrings r.warnings)])

def lines (r : Report) : List String :=
  ["Target host: " ++ r.host]
    ++ (r.operation?.map fun v => "Operation:\n" ++ v.toJson.pretty).toList
    ++ (r.resource?.map fun v => "Resource:\n" ++ v.toJson.pretty).toList
    ++ (if r.isDiscarded then ["Discarded: not sent to the target"] else [])
    ++ (r.rejection?.map fun description => "Rejected: " ++ description).toList
    ++ r.warnings.map fun warning => "Warning: " ++ warning

def unlines (lines : List String) : String :=
  String.join (lines.map fun line => line ++ "\n")

/-- The text of a report.  Every JSON document is a YAML document as well. -/
def text (format : OutputFormat) (r : Report) : String :=
  match format with
  | .text => unlines r.lines
  | .json => unlines [r.toJson.pretty]
  | .yaml => unlines [r.toJson.pretty]

def registrationLine (entry : String × List ModelVersion) : String :=
  "  " ++ entry.1 ++ ": " ++ ", ".intercalate (entry.2.map ModelVersion.text)

def ofRegistry (r : Registry) : String :=
  let registered := r.registrations
  unlines (
    ["Configuration is valid"]
      ++ (if registered.isEmpty then ["No subsystem transformers registered"] else [])
      ++ registered.map registrationLine)

end Report
end MixedDomain
