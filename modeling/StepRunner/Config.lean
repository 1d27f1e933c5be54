import StepRunner.Json.Display

/-!
# The configuration of a run

A `RunConfig` is made by `RunConfig.create` from arguments of any kind. The number of cases that run
at once must be a whole number of at least one, and is capped at `concurrencyLimit`; the time limit
must be a positive whole number of milliseconds, where `true` counts as one; the environment must not
be empty. The other fields are labels, kept as they are given.

`RunConfig.ofRaw` reads the configuration of a suite, where overrides win key by key.
-/

namespace StepRunner

/-- The greatest number of cases that a run may ask to run at once. -/
def concurrencyLimit : Nat := 20

/-- How long a run may take: milliseconds, or the truth value that stands for one. -/
inductive TimeLimit where
  | milliseconds (n : Nat)
  | flag
  deriving DecidableEq, Repr, Inhabited

namespace TimeLimit

/-- The time in milliseconds. -/
def value : TimeLimit → Nat
  | .milliseconds n => n
  | .flag => 1

/-- The limit as it was given. -/
def toJson : TimeLimit → Json
  | .milliseconds n => .int n
  | .flag => .bool true

end TimeLimit

/-- The configuration of a run. -/
structure RunConfig where
  concurrency : Nat := 4
  environment : Json := .str "staging"
  timeLimit : TimeLimit := .milliseconds 300000
  aiOptimization : Json := .bool false
  baseUrl : Json := .null
  suite : Json := .null
  deriving Inhabited

/-- What a configuration is made from. -/
structure ConfigArguments where
  concurrency : Json := .int 4
  environment : Json := .str "staging"
  timeLimit : Json := .int 300000
  aiOptimization : Json := .bool false
  baseUrl : Json := .null
  suite : Json := .null
  deriving Inhabited

/-- Why there is no such configuration. -/
inductive ConfigFault where
  | concurrencyNotInteger (given : Json)
  | concurrencyTooSmall (given : Int)
  | badTimeLimit (given : Json)
  | emptyEnvironment

/-- The wording of a fault. -/
def ConfigFault.message : ConfigFault → String
  | .concurrencyNotInteger j => "concurrency must be an integer, got " ++ j.display
  | .concurrencyTooSmall n => "concurrency must be >= 1, got " ++ (Json.int n).display
  | .badTimeLimit j => "timeout_ms must be a positive integer, got " ++ j.display
  | .emptyEnvironment => "environment must not be empty"

namespace RunConfig

/-- A whole number of at least one, capped at the limit. -/
def readConcurrency : Json → Except ConfigFault Nat
  | .int n => if n < 1 then .error (.concurrencyTooSmall n) else .ok (min n.toNat concurrencyLimit)
  | j => .error (.concurrencyNotInteger j)

/-- A positive whole number, or `true`. -/
def readTimeLimit : Json → Except ConfigFault TimeLimit
  | .int n => if n ≤ 0 then .error (.badTimeLimit (.int n)) else .ok (.milliseconds n.toNat)
  | .bool true => .ok .flag
  | j => .error (.badTimeLimit j)

/-- The configuration that arguments describe. -/
def create (a : ConfigArguments) : Except ConfigFault RunConfig := do
  let concurrency ← readConcurrency a.concurrency
  let timeLimit ← readTimeLimit a.timeLimit
  if a.environment.isTruthy then
    return { concurrency, timeLimit, environment := a.environment
             aiOptimization := a.aiOptimization, baseUrl := a.baseUrl, suite := a.suite }
  else throw .emptyEnvironment

/-- The form of a configuration in a snapshot. -/
def toJson (c : RunConfig) : Json :=
  .obj [ ("parallel", .int c.concurrency),
    ("environment", c.environment),
    ("aiOptimization", c.aiOptimization),
    ("baseUrl", c.baseUrl),
    ("suite", c.suite),
    ("timeout", c.timeLimit.toJson) ]

/-! ## Configurations of suites -/

/-- The fields with those of the overrides that are not null in their place. -/
def override (fields overrides : List (String × Json)) : List (String × Json) :=
  overrides.foldl (fun fs (k, v) => if v.isNull then fs else Json.set fs k v) fields

/-- The value of the first of the keys that is there, unless it is null. -/
def given? (fields : List (String × Json)) (keys : List String) : Option Json :=
  (keys.findSome? (Json.find? fields)).bind Json.nonNull?

/-- The arguments that the fields of a suite's configuration give. -/
def arguments (fields : List (String × Json)) : ConfigArguments :=
  let unset : ConfigArguments := {}
  { concurrency := (given? fields ["concurrency", "parallel"]).getD unset.concurrency
    environment := (given? fields ["environment"]).getD unset.environment
    timeLimit := (given? fields ["timeout"]).getD unset.timeLimit
    aiOptimization := ((given? fields ["aiOptimization"]).map fun j => .bool j.isTruthy).getD
      unset.aiOptimization
    baseUrl := (given? fields ["baseUrl"]).getD .null
    suite := (given? fields ["suite"]).getD .null }

/-- The configuration that a suite's fields and overrides give. -/
def ofFields (fields overrides : List (String × Json)) : Except ConfigFault RunConfig :=
  create (arguments (override fields overrides))

end RunConfig

end StepRunner
