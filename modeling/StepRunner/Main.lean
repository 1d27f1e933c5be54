import StepRunner.Browser.Script
import StepRunner.CommandLine.Command
import Std.Time.DateTime.Timestamp

/-!
# The program

`main` carries out a command line on the files, the environment and the clock of the machine. Pages
are shown by the browser of the empty script, which has a blank page without elements.
-/

namespace StepRunner.Program

open CommandLine Files

/-- The variables that the settings are read from. -/
def variableNames : List String :=
  ["HEADLESS", "VIEWPORT_WIDTH", "VIEWPORT_HEIGHT", "INTERACTION_TIMEOUT_MS",
    "ASSERTION_TIMEOUT_MS", "NAVIGATION_TIMEOUT_MS", "NAVIGATION_RETRY_TIMEOUT_MS",
    "READY_STATE_TIMEOUT_MS", "CLICK_SETTLE_MS", "MAX_CONCURRENCY", "RETAIN_TERMINAL_RUNS",
    "OUTPUT_ROOT", "BASE_URL"].map ("RUNNER_" ++ ·)

/-- The variables that are set. -/
def environment : IO Environment := do
  let values ← variableNames.mapM fun name => return (name, ← IO.getEnv name)
  return values.filterMap fun (name, value) => value.map (name, ·)

/-- The start of the year 1970. -/
def epoch : Instant :=
  .ofDate { year := 1970, month := 1, day := 1, hour := 0, minute := 0, second := 0, micro := 0 }

/-- The present moment. -/
def present : IO Instant := do
  let t ← Std.Time.Timestamp.now
  return epoch.later (t.toNanosecondsSinceUnixEpoch.val / 1000).toNat

/-- The tree that holds the file at a path, if it can be read. -/
def treeWith (path : String) : IO Tree := do
  match ← (IO.FS.readBinFile path).toBaseIO with
  | .error _ => return {}
  | .ok bytes =>
    let place := (Path.ofString path).parts
    let folders := (List.range place.length).map place.take
    return { folders, files := [(place, .bytes bytes.toList)] }

/-- Writes the files that are not among those before, below a root mark. -/
def writeFiles (mark : String) (before after : Tree) : IO Unit := do
  for (place, content) in after.files do
    unless before.files.any (·.1 == place) do
      IO.FS.createDirAll (mark ++ "/".intercalate place.dropLast)
      IO.FS.writeBinFile (mark ++ "/".intercalate place) ⟨content.toBytes.toArray⟩

/-- The root mark of the folder that results go to. -/
def rootMark (words : List String) (env : Environment) : String :=
  match readOptions words, Settings.ofEnvironment env with
  | .options o, .ok settings => (o.applied settings).outputRoot.root
  | _, _ => ""

/-- The path of the suite that a command line names. -/
def suitePath (words : List String) : String :=
  match readOptions words with
  | .options o => o.suite
  | _ => ""

/-- The code for an ending, which is told where it is out of the ordinary. -/
def finish : Ending → IO UInt32
  | .exit code => return code.toUInt32
  | .help => do IO.print helpText; return 0
  | .usage fault => do IO.eprintln fault.line; return 2
  | .escaped escape => do IO.eprintln escape.message; return 1

end StepRunner.Program

open StepRunner StepRunner.Program in
/-- Carries out the command line. -/
def main (words : List String) : IO UInt32 := do
  let env ← environment
  let files ← treeWith (suitePath words)
  let script : Script := {}
  let t := CommandLine.perform
    { environment := env, files, now := ← present, browser := script.browser
      browserState := script.start } words
  for line in t.printed do IO.println line
  for line in t.told ++ t.journal do IO.eprint (CommandLine.logLine line)
  writeFiles (rootMark words env) files t.files
  finish t.ending
