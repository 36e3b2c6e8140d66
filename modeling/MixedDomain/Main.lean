import MixedDomain.Program

/-!
# Entry point

Collects the environment and the files that a run needs, and prints how it ends.
-/

namespace MixedDomain

/-- What is found under a path.  Where the path leads nowhere there is nothing to read. -/
def readContents (path : String) : IO FileContents := do
  match ← (IO.FS.realPath path).toBaseIO with
  | .error _ => return .missing
  | .ok _ =>
      match ← (IO.FS.readFile path).toBaseIO with
      | .ok s => return .text s
      | .error _ => return .unreadable

def readEnvironment : IO (List (String × String)) := do
  let found ← CommandLine.Flag.all.filterMapM fun flag => do
    match flag.environmentName? with
    | none => return none
    | some name => return (← IO.getEnv name).map fun value => (name, value)
  return found

def readFiles (line : CommandLine) : IO (List (String × FileContents)) :=
  (Program.paths line).mapM fun path => do
    let contents ← readContents path
    return (path, contents)

/-- Runs the program: the exit code. -/
def runProgram (arguments : List String) : IO UInt32 := do
  let environment ← readEnvironment
  let line := CommandLine.read environment arguments
  let files ← match line with
    | .ok line => readFiles line
    | .error _ => pure []
  let ending := Program.finish (fun path => (Entries.get? path files).getD .missing) line
  IO.print ending.output
  unless ending.message.isEmpty do
    IO.eprintln ("Error: " ++ ending.message)
  return UInt32.ofNat ending.exitCode

end MixedDomain

def main (arguments : List String) : IO UInt32 :=
  MixedDomain.runProgram arguments
