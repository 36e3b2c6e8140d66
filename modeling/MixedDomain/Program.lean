import MixedDomain.CommandLine.Reader
import MixedDomain.Config.Reader
import MixedDomain.Json.Reader
import MixedDomain.Report

/-!
# The program

## A run

A run reads the command line, the configuration, and the documents that the
command line names, and ends with an exit code and an output.  It depends on
nothing but its arguments, its environment and the files: `run` is a function of
these.

## Failures

Whatever goes wrong during the run ends it with exit code 1 and no output; a
command line that makes no sense ends it with exit code 2.
-/

namespace MixedDomain

/-- What is found under a path. -/
inductive FileContents where
  | missing
  | unreadable
  | text (text : String)
  deriving DecidableEq, Inhabited, Repr

/-- Why a run fails. -/
inductive RunError where
  | config (path : String) (error : ConfigError)
  | target (error : ConfigError)
  | unreadable (path : String)
  | malformed (path : String)
  | value (error : ValueError)
  | transform (error : TransformError)
  | noModel
  | noResource (a : Address)
  | nothingToDo
  deriving DecidableEq, Repr

def RunError.message : RunError -> String
  | .config path error => "Failed to load " ++ path ++ ": " ++ error.message
  | .target error => error.message
  | .unreadable path => "Failed to read " ++ path
  | .malformed path => "Failed to parse " ++ path
  | .value error => error.message
  | .transform error => error.message
  | .noModel => "--resource needs --model"
  | .noResource a => "No resource at " ++ a.text
  | .nothingToDo => "Nothing to transform: pass --operation, --resource or --validate"

/-- How a run ends. -/
structure Ending where
  exitCode : Nat
  output : String
  message : String
  deriving DecidableEq, Repr

namespace Program

def versionLine : String :=
  "dmr-transform 0.1.0"

def helpLine (flag : CommandLine.Flag) : String :=
  let letter :=
    match flag.letter? with
    | some c => "-" ++ c.toString ++ ", "
    | none => "    "
  "  " ++ letter ++ "--" ++ flag.name

def help : String :=
  Report.unlines (["Usage: dmr-transform [OPTIONS]", "", "Options:"]
    ++ CommandLine.Flag.all.map helpLine)

/-- The configuration under a path; where there is none nothing is declared. -/
def loadConfig (path : String) : FileContents -> Except RunError Config
  | .missing => .ok Config.empty
  | .unreadable => .error (.config path .unreadable)
  | .text s => (Config.ofText s).mapError (.config path)

def loadValue (path : String) : FileContents -> Except RunError Value
  | .missing => .error (.unreadable path)
  | .unreadable => .error (.unreadable path)
  | .text s =>
      match Json.read? s with
      | some json => (Value.ofJson json).mapError .value
      | none => .error (.malformed path)

/-- The resource under a path, or an empty one without path. -/
def loadResource (files : String -> FileContents) : Option String -> Except RunError Resource
  | some path => do
      let value ← loadValue path (files path)
      (Resource.ofValue value).mapError .value
  | none => .ok Resource.empty

def reportOn {result : Type} (report : result -> Context -> Report) (m : TransformM result)
    (c : Context) : Except RunError Report :=
  match TransformM.run m c with
  | (.ok x, c) => .ok (report x c)
  | (.error e, _) => .error (.transform e)

def transformResource (r : Registry) (a : Address) (c : Context) : Except RunError Report :=
  if a.isEmpty then
    reportOn (fun root => Report.ofResource (some root)) (r.transformRoot c.model.root) c
  else
    match c.model.resource? a with
    | some resource => reportOn Report.ofResource (r.transformResource a resource) c
    | none => .error (.noResource a)

def choice (line : CommandLine) : Config.TargetChoice :=
  ⟨line.host?, line.coreVersion?, line.subsystemVersions⟩

def transform (files : String -> FileContents) (line : CommandLine) (config : Config)
    (r : Registry) : Except RunError Report := do
  let target ← (config.targetFor (choice line)).mapError .target
  match line.resource?, line.operation? with
  | some a, _ =>
      if line.model?.isNone then
        throw .noModel
      let root ← loadResource files line.model?
      transformResource r a (Context.start target (config.model root))
  | none, some path =>
      let operation ← loadValue path (files path)
      let root ← loadResource files line.model?
      reportOn Report.ofOutcome (r.transformOperation operation)
        (Context.start target (config.model root))
  | none, none => throw .nothingToDo

def execute (files : String -> FileContents) (line : CommandLine) : Except RunError String := do
  let config ← loadConfig line.config (files line.config)
  let r ← config.registry.mapError (.config line.config)
  if line.validate then
    return Report.ofRegistry r
  else
    let report ← transform files line config r
    return report.text line.format

/-- The end of a run that never began. -/
def refuse : UsageError -> Ending
  | .help => ⟨0, help, ""⟩
  | .version => ⟨0, Report.unlines [versionLine], ""⟩
  | e => ⟨2, "", e.message⟩

def finish (files : String -> FileContents) (line : Except UsageError CommandLine) : Ending :=
  match line with
  | .error e => refuse e
  | .ok line =>
      match execute files line with
      | .ok output => ⟨0, output, ""⟩
      | .error e => ⟨1, "", e.message⟩

def run (environment : List (String × String)) (files : String -> FileContents)
    (arguments : List String) : Ending :=
  finish files (CommandLine.read environment arguments)

def paths (line : CommandLine) : List String :=
  line.config :: (line.operation?.toList ++ line.model?.toList)

end Program
end MixedDomain
