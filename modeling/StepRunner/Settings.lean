import StepRunner.Files.Path
import StepRunner.Number.Decimal
import StepRunner.Text.LowerCase
import StepRunner.Text.Quoted

/-!
# Settings

What a runner can be told from outside: how the browser is shown, how long each kind of wait may
take, how many cases run at once, where results go, and how many finished runs stay in memory.
`Settings.ofEnvironment` reads them from `RUNNER_…` variables. A variable that is unset or blank
leaves the default; a number that cannot be read is refused; the number of workers is capped at
`maxWorkers`, and the retention limit is at least zero.
-/

namespace StepRunner

open Files Number Text

/-- The most cases that run at once. -/
def maxWorkers : Int := 20

/-- The settings of a runner. Times are milliseconds. -/
structure Settings where
  headless : Bool := true
  interactionTimeout : Int := 5000
  assertionTimeout : Int := 2000
  navigationTimeout : Int := 60000
  navigationRetryTimeout : Int := 30000
  readyStateTimeout : Int := 10000
  clickSettle : Int := 200
  viewportWidth : Int := 1280
  viewportHeight : Int := 720
  maxConcurrency : Int := maxWorkers
  outputRoot : Path := Path.ofString "results"
  baseUrl : Option String := none
  /-- How many finished runs stay in memory. -/
  retainedRuns : Int := 100
  deriving DecidableEq, Repr, Inhabited

/-- The variables that are set. -/
abbrev Environment := List (String × String)

/-- A variable that should hold a number and does not. -/
structure SettingsFault where
  setting : String
  value : String
  deriving DecidableEq, Repr

/-- The wording of a fault. -/
def SettingsFault.message (f : SettingsFault) : String :=
  "Environment variable " ++ f.setting ++ " must be an integer, got " ++ quote f.value

namespace Environment

/-- The value of a variable that is set and not blank. -/
def value? (env : Environment) (name : String) : Option String :=
  (env.lookup name).filter fun v => !isBlankText v

/-- The value of a variable that is set and not empty. -/
def text? (env : Environment) (name : String) : Option String :=
  (env.lookup name).filter fun v => v != ""

/-- A switch: on for `1`, `true`, `yes` and `on`. -/
def switch (env : Environment) (name : String) (unset : Bool) : Bool :=
  match env.value? name with
  | none => unset
  | some v => ["1", "true", "yes", "on"].contains (toLower (strip v))

/-- A whole number. -/
def number (env : Environment) (name : String) (unset : Int) : Except SettingsFault Int :=
  match env.value? name with
  | none => .ok unset
  | some v =>
    match readInt? v.toList with
    | some n => .ok n
    | none => .error ⟨name, v⟩

end Environment

/-- The settings that an environment asks for. -/
def Settings.ofEnvironment (env : Environment) : Except SettingsFault Settings := do
  let unset : Settings := {}
  let viewportWidth ← env.number "RUNNER_VIEWPORT_WIDTH" unset.viewportWidth
  let viewportHeight ← env.number "RUNNER_VIEWPORT_HEIGHT" unset.viewportHeight
  let interactionTimeout ← env.number "RUNNER_INTERACTION_TIMEOUT_MS" unset.interactionTimeout
  let assertionTimeout ← env.number "RUNNER_ASSERTION_TIMEOUT_MS" unset.assertionTimeout
  let navigationTimeout ← env.number "RUNNER_NAVIGATION_TIMEOUT_MS" unset.navigationTimeout
  let navigationRetryTimeout ←
    env.number "RUNNER_NAVIGATION_RETRY_TIMEOUT_MS" unset.navigationRetryTimeout
  let readyStateTimeout ← env.number "RUNNER_READY_STATE_TIMEOUT_MS" unset.readyStateTimeout
  let clickSettle ← env.number "RUNNER_CLICK_SETTLE_MS" unset.clickSettle
  let maxConcurrency ← env.number "RUNNER_MAX_CONCURRENCY" unset.maxConcurrency
  let retainedRuns ← env.number "RUNNER_RETAIN_TERMINAL_RUNS" unset.retainedRuns
  return {
    headless := env.switch "RUNNER_HEADLESS" unset.headless
    interactionTimeout, assertionTimeout, navigationTimeout, navigationRetryTimeout
    readyStateTimeout, clickSettle, viewportWidth, viewportHeight
    maxConcurrency := min maxConcurrency maxWorkers
    outputRoot := ((env.text? "RUNNER_OUTPUT_ROOT").map Path.ofString).getD unset.outputRoot
    baseUrl := env.text? "RUNNER_BASE_URL"
    retainedRuns := max retainedRuns 0 }

end StepRunner
