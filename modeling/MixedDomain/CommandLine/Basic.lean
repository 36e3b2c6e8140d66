import MixedDomain.Address.Text
import MixedDomain.Version

/-!
# The command line

## Flags and settings

A flag announces a setting.  Most flags take a value, some settings may also come
from a variable of the environment, and only versions of subsystems may be given
more than once.

## Mistakes

Reading the command line ends with the first mistake, or when help or the version
of the program is wanted.
-/

namespace MixedDomain

/-- Why the command line does not say what to do. -/
inductive UsageError where
  /-- A value is missing, or none of those that are allowed. -/
  | invalidValue
  | malformedValue
  /-- A setting is given twice, or together with one that excludes it. -/
  | conflict
  | missingSetting
  /-- A flag without value has one. -/
  | unexpectedValue
  /-- There is no such flag, or nothing that an argument belongs to. -/
  | unknownArgument
  | help
  | version
  deriving DecidableEq, Inhabited, Repr

def UsageError.message : UsageError -> String
  | .invalidValue => "a value is missing or not allowed"
  | .malformedValue => "a value does not have the form it needs"
  | .conflict => "an option is given twice or excludes another one"
  | .missingSetting => "an option is missing that another one needs"
  | .unexpectedValue => "an option takes no value"
  | .unknownArgument => "unexpected argument"
  | .help => "help is wanted"
  | .version => "the version is wanted"

/-- How much is logged. -/
inductive LogLevel where
  | trace
  | debug
  | info
  | warn
  | error
  deriving DecidableEq, Inhabited, Repr

namespace LogLevel

def name : LogLevel -> String
  | .trace => "trace"
  | .debug => "debug"
  | .info => "info"
  | .warn => "warn"
  | .error => "error"

def all : List LogLevel :=
  [.trace, .debug, .info, .warn, .error]

end LogLevel

/-- How the report is written. -/
inductive OutputFormat where
  | text
  | json
  | yaml
  deriving DecidableEq, Inhabited, Repr

namespace OutputFormat

def name : OutputFormat -> String
  | .text => "text"
  | .json => "json"
  | .yaml => "yaml"

def all : List OutputFormat :=
  [.text, .json, .yaml]

end OutputFormat

/-- What the command line says. -/
structure CommandLine where
  config : String
  operation? : Option String
  model? : Option String
  resource? : Option Address
  host? : Option String
  coreVersion? : Option ModelVersion
  subsystemVersions : List (String × ModelVersion)
  validate : Bool
  logLevel : LogLevel
  format : OutputFormat
  deriving DecidableEq, Repr

namespace CommandLine

def default : CommandLine :=
  { config := "transform.yaml"
    operation? := none
    model? := none
    resource? := none
    host? := none
    coreVersion? := none
    subsystemVersions := []
    validate := false
    logLevel := .info
    format := .text }

instance : Inhabited CommandLine :=
  ⟨default⟩

/-- The flags. -/
inductive Flag where
  | config
  | operation
  | model
  | resource
  | host
  | coreVersion
  | subsystemVersion
  | validate
  | logLevel
  | format
  | help
  | version
  deriving DecidableEq, Inhabited, Repr

namespace Flag

def all : List Flag :=
  [.config, .operation, .model, .resource, .host, .coreVersion, .subsystemVersion, .validate,
    .logLevel, .format, .help, .version]

def name : Flag -> String
  | .config => "config"
  | .operation => "operation"
  | .model => "model"
  | .resource => "resource"
  | .host => "host"
  | .coreVersion => "core-version"
  | .subsystemVersion => "subsystem-version"
  | .validate => "validate"
  | .logLevel => "log-level"
  | .format => "output-format"
  | .help => "help"
  | .version => "version"

def letter? : Flag -> Option Char
  | .config => some 'c'
  | .logLevel => some 'l'
  | .help => some 'h'
  | .version => some 'V'
  | _ => none

def takesValue : Flag -> Bool
  | .validate => false
  | .help => false
  | .version => false
  | _ => true

def environmentName? : Flag -> Option String
  | .config => some "DMR_TRANSFORM_CONFIG"
  | .operation => some "DMR_TRANSFORM_OPERATION"
  | .model => some "DMR_TRANSFORM_MODEL"
  | .host => some "DMR_TRANSFORM_HOST"
  | .coreVersion => some "DMR_TRANSFORM_CORE_VERSION"
  | .logLevel => some "DMR_TRANSFORM_LOG_LEVEL"
  | _ => none

def named? (name : List Char) : Option Flag :=
  all.find? fun flag => flag.name.toList == name

def lettered? (letter : Char) : Option Flag :=
  all.find? fun flag => flag.letter? == some letter

end Flag

/-- A setting with its value. -/
inductive Setting where
  | config (path : String)
  | operation (path : String)
  | model (path : String)
  | resource (a : Address)
  | host (name : String)
  | coreVersion (version : ModelVersion)
  | subsystemVersion (name : String) (version : ModelVersion)
  | validate
  | logLevel (level : LogLevel)
  | format (format : OutputFormat)
  deriving DecidableEq, Repr

namespace Setting

def flag : Setting -> Flag
  | .config _ => .config
  | .operation _ => .operation
  | .model _ => .model
  | .resource _ => .resource
  | .host _ => .host
  | .coreVersion _ => .coreVersion
  | .subsystemVersion _ _ => .subsystemVersion
  | .validate => .validate
  | .logLevel _ => .logLevel
  | .format _ => .format

def apply (c : CommandLine) : Setting -> CommandLine
  | .config path => { c with config := path }
  | .operation path => { c with operation? := some path }
  | .model path => { c with model? := some path }
  | .resource a => { c with resource? := some a }
  | .host name => { c with host? := some name }
  | .coreVersion version => { c with coreVersion? := some version }
  | .subsystemVersion name version =>
      { c with subsystemVersions := c.subsystemVersions ++ [(name, version)] }
  | .validate => { c with validate := true }
  | .logLevel level => { c with logLevel := level }
  | .format chosen => { c with format := chosen }

end Setting
end CommandLine
end MixedDomain
