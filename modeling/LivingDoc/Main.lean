import LivingDoc.Run

/-!
The program: it reads the files that a run needs, and prints and returns what the run leaves
behind.
-/

namespace LivingDoc

/-- The reason behind an error of the operating system. The number 20, which says that a directory
is needed, may come negated. -/
def ReadFault.ofError : IO.Error → ReadFault
  | .inappropriateType _ code _ =>
    if code = 20 || code = 0 - 20 then .notADirectory else .isADirectory
  | _ => .missing

/-- Reads the file under a path. -/
def readFile (path : String) : IO (Except ReadFault (List UInt8)) := do
  try
    return .ok (← IO.FS.readBinFile path).toList
  catch error =>
    return .error (.ofError error)

/-- The directory that holds what has been read. -/
def Directory.ofReads (reads : List (String × Except ReadFault (List UInt8))) : Directory where
  read path := (reads.lookup path).getD (.error .missing)

/-- The paths that the arguments of a command name. -/
def Command.paths : Command → List String
  | version => []
  | help _ => []
  | map input => [input.config, input.document]
  | results input specRun cucumberJson =>
    [input.config, input.document] ++ specRun ++ cucumberJson

/-- The paths of the reports that a command takes from its configuration. -/
def Command.configuredPaths (directory : Directory) : Command → List String
  | results input _ _ =>
    match Config.load directory input.config with
    | .ok config => config.reports.map ReportLocation.path
    | .error _ => []
  | _ => []

/-- Reads the files under paths. -/
def readFiles (paths : List String) : IO (List (String × Except ReadFault (List UInt8))) :=
  paths.mapM fun path => do return (path, ← readFile path)

end LivingDoc

open LivingDoc in
/-- Runs the program with the arguments of its command line. -/
def main (arguments : List String) : IO UInt32 := do
  let mut directory := Directory.ofReads []
  if let some command := Command.parse? arguments then
    let named ← readFiles command.paths
    let configured ← readFiles (command.configuredPaths (.ofReads named))
    directory := .ofReads (named ++ configured)
  let outcome := run arguments directory
  IO.print outcome.stdout
  if outcome.stderr ≠ "" then IO.eprintln outcome.stderr
  return UInt32.ofNat outcome.exitCode
