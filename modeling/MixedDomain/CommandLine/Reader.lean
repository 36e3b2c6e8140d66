import MixedDomain.CommandLine.Basic
import MixedDomain.Entries

/-!
# Reading the command line

## The tracker

Arguments are taken one by one.  A flag that takes a value and has none yet
waits for it, and a value that was given as an argument of its own is read only
when the next flag comes or the arguments end.  Nothing may follow two dashes
that stand alone.

## After the arguments

Settings that were not given are taken from the environment, and at last the
settings are checked against one another.
-/

namespace MixedDomain
namespace CommandLine

/-- A path, which must not be empty. -/
def readPath (text : String) : Except UsageError String :=
  if text.isEmpty then .error .invalidValue else .ok text

def readName {item : Type} (all : List item) (name : item -> String) (text : String) :
    Except UsageError item :=
  match all.find? fun x => name x == text with
  | some x => .ok x
  | none => .error .invalidValue

def readVersion (text : String) : Except UsageError ModelVersion :=
  match ModelVersion.read? text with
  | some version => .ok version
  | none => .error .malformedValue

def readAddress (text : String) : Except UsageError Address :=
  match Address.ofText text with
  | .ok a => .ok a
  | .error _ => .error .malformedValue

/-- The name of a subsystem and its version, with an equals sign between them. -/
def readSubsystemVersion (text : String) : Except UsageError Setting :=
  match Text.cut '=' text.toList with
  | some (name, version) =>
      (readVersion (String.ofList version)).map (.subsystemVersion (String.ofList name))
  | none => .error .malformedValue

def Flag.read (flag : Flag) (text : String) : Except UsageError Setting :=
  match flag with
  | .config => (readPath text).map .config
  | .operation => (readPath text).map .operation
  | .model => (readPath text).map .model
  | .resource => (readAddress text).map .resource
  | .host => .ok (.host text)
  | .coreVersion => (readVersion text).map .coreVersion
  | .subsystemVersion => readSubsystemVersion text
  | .validate => .ok .validate
  | .logLevel => (readName LogLevel.all LogLevel.name text).map .logLevel
  | .format => (readName OutputFormat.all OutputFormat.name text).map .format
  | .help => .error .help
  | .version => .error .version

/-!
# Arguments
-/

/-- A flag that stands before its value. -/
inductive Waiting where
  | nothing
  | forValue (flag : Flag)
  /-- The value of the flag has come and is still to be read. -/
  | withValue (flag : Flag) (text : String)
  deriving DecidableEq, Repr

/-- What the arguments have said so far. -/
structure Tracker where
  settings : List Setting
  waiting : Waiting
  isClosed : Bool
  deriving Repr

namespace Tracker

def start : Tracker :=
  ⟨[], .nothing, false⟩

def has (flag : Flag) (t : Tracker) : Bool :=
  t.settings.any fun setting => setting.flag == flag

/-- Adds a setting, which may be there only if it can be given more than once. -/
def add (flag : Flag) (text : String) (t : Tracker) : Except UsageError Tracker :=
  if flag != .subsystemVersion && t.has flag then
    .error .conflict
  else
    (flag.read text).map fun setting => { t with settings := t.settings ++ [setting] }

/-- Reads the value that is still to be read; a flag that waits for its value has none. -/
def settle (t : Tracker) : Except UsageError Tracker :=
  match t.waiting with
  | .nothing => .ok t
  | .forValue _ => .error .invalidValue
  | .withValue flag text => { t with waiting := .nothing }.add flag text

def takeFlag (flag : Flag) (attached? : Option String) (t : Tracker) : Except UsageError Tracker := do
  match attached? with
  | some text =>
      let t ← t.settle
      t.add flag text
  | none =>
      let t ← t.settle
      if flag.takesValue then
        return { t with waiting := .forValue flag }
      else
        t.add flag ""

def takeLong (body : List Char) (t : Tracker) : Except UsageError Tracker :=
  let (name, attached?) :=
    match Text.cut '=' body with
    | some (name, value) => (name, some (String.ofList value))
    | none => (body, none)
  match Flag.named? name with
  | none => .error .unknownArgument
  | some flag =>
      if attached?.isSome && !flag.takesValue then
        .error .unexpectedValue
      else
        t.takeFlag flag attached?

/-- The value that is attached to a letter, if there is one; an equals sign may stand between. -/
def attached? : List Char -> Option String
  | [] => none
  | '=' :: rest => some (String.ofList rest)
  | rest => some (String.ofList rest)

/-- Takes flags with one dash; a flag that takes a value takes all that follows. -/
def takeLetters : List Char -> Tracker -> Except UsageError Tracker
  | [], t => .ok t
  | c :: rest, t =>
      match Flag.lettered? c with
      | none => .error .unknownArgument
      | some flag =>
          if flag.takesValue then
            t.takeFlag flag (attached? rest)
          else
            (t.takeFlag flag none).bind (takeLetters rest)

def takeValue (text : String) (t : Tracker) : Except UsageError Tracker :=
  match t.waiting with
  | .forValue flag => .ok { t with waiting := .withValue flag text }
  | _ => .error .unknownArgument

def take (t : Tracker) (argument : String) : Except UsageError Tracker :=
  if t.isClosed then
    .error .unknownArgument
  else
    match argument.toList with
    | ['-', '-'] => .ok { t with isClosed := true }
    | '-' :: '-' :: body => t.takeLong body
    | '-' :: c :: rest => t.takeLetters (c :: rest)
    | _ => t.takeValue argument

/-- Takes a setting from the environment if it has not been given. -/
def takeVariable (environment : List (String × String)) (t : Tracker) (flag : Flag) :
    Except UsageError Tracker :=
  match flag.environmentName?.bind fun name => Entries.get? name environment with
  | some text => if t.has flag then .ok t else t.add flag text
  | none => .ok t

end Tracker

/-!
# The whole command line
-/

/-- Checks settings against one another: a resource is not an operation, and belongs to a model. -/
def checkTogether (c : CommandLine) : Except UsageError CommandLine :=
  if c.resource?.isSome && c.operation?.isSome then
    .error .conflict
  else if c.resource?.isSome && c.model?.isNone then
    .error .missingSetting
  else
    .ok c

/-- Reads the arguments, given the variables of the environment. -/
def read (environment : List (String × String)) (arguments : List String) :
    Except UsageError CommandLine := do
  let t ← arguments.foldlM Tracker.take Tracker.start
  let t ← t.settle
  let t ← Flag.all.foldlM (Tracker.takeVariable environment) t
  checkTogether (t.settings.foldl Setting.apply default)

end CommandLine
end MixedDomain
