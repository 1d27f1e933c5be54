import StepRunner.Instant
import StepRunner.Json.Basic

/-!
# Test cases and their results

A `TestCase` is a list of steps and the outcome that is expected at the end. A `CaseResult` is the
verdict of one execution, with its times, its log and, for a failed case, the kind of the error and a
screenshot. `CaseResult.fields` is the form of a result in a snapshot.
-/

namespace StepRunner

/-- A test case. -/
structure TestCase where
  id : String
  title : String
  steps : List String := []
  expectedResult : String := ""
  description : String := ""
  deriving DecidableEq, Repr, Inhabited

/-- The verdict of a case. -/
inductive CaseStatus where
  | pass
  | fail
  deriving DecidableEq, Repr, Inhabited

/-- The name of a verdict. -/
def CaseStatus.name : CaseStatus → String
  | .pass => "pass"
  | .fail => "fail"

/-- The verdict of a name. -/
def CaseStatus.ofName? : String → Option CaseStatus
  | "pass" => some .pass
  | "fail" => some .fail
  | _ => none

/-- What kept a step from being carried out. -/
inductive ErrorKind where
  | targetNotFound
  | assertionFailed
  | navigationFailed
  | interactionFailed
  | invalidStep
  | cancelled
  | executionError
  deriving DecidableEq, Repr, Inhabited

/-- The name of a kind of error. -/
def ErrorKind.name : ErrorKind → String
  | .targetNotFound => "TargetNotFound"
  | .assertionFailed => "AssertionFailed"
  | .navigationFailed => "NavigationFailed"
  | .interactionFailed => "InteractionFailed"
  | .invalidStep => "InvalidStep"
  | .cancelled => "Cancelled"
  | .executionError => "ExecutionError"

/-- The outcome of one execution of a case. -/
structure CaseResult where
  status : CaseStatus
  message : Option String
  startedAt : Instant
  completedAt : Instant
  /-- Milliseconds. -/
  duration : Int
  logs : List String := []
  error : Option String := none
  /-- The screenshot as a data URL. -/
  screenshot : Option String := none
  deriving DecidableEq, Repr, Inhabited

namespace CaseResult

/-- The case passed. -/
def passed (r : CaseResult) : Bool := r.status == .pass

/-- The fields of a result in a snapshot. -/
def fields (r : CaseResult) : List (String × Json) :=
  [ ("status", .str r.status.name),
    ("duration", .int r.duration),
    ("message", .ofString? r.message),
    ("error", .ofString? r.error),
    ("screenshot", .ofString? r.screenshot),
    ("logs", .arr (r.logs.map .str)),
    ("startedAt", .str r.startedAt.iso),
    ("completedAt", .str r.completedAt.iso) ]

end CaseResult

end StepRunner
