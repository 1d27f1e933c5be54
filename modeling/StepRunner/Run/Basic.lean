import StepRunner.Case.Basic
import StepRunner.Config

/-!
# Runs

A `Run` executes test cases under a configuration. It counts the cases that passed, failed and are
pending, keeps the result of every case, and moves from pending over running to one of three terminal
statuses. `Run.make` refuses cases that share an id; `Run.create` makes a run with an id of its own.
`Run.toJson` is the snapshot of a run.
-/

namespace StepRunner

open Number

/-! ## 1. Status and counts -/

/-- Where a run stands. -/
inductive RunStatus where
  | pending
  | running
  | completed
  | failed
  | cancelled
  deriving DecidableEq, Repr, Inhabited

namespace RunStatus

/-- The name of a status. -/
def name : RunStatus → String
  | .pending => "pending"
  | .running => "running"
  | .completed => "completed"
  | .failed => "failed"
  | .cancelled => "cancelled"

/-- The status of a name. -/
def ofName? : String → Option RunStatus
  | "pending" => some .pending
  | "running" => some .running
  | "completed" => some .completed
  | "failed" => some .failed
  | "cancelled" => some .cancelled
  | _ => none

/-- A run with this status has ended. -/
def isTerminal : RunStatus → Bool
  | .completed | .failed | .cancelled => true
  | .pending | .running => false

@[simp] theorem ofName?_name (s : RunStatus) : ofName? s.name = some s := by cases s <;> rfl

end RunStatus

/-- How many cases stand where, and how long the run took in milliseconds. -/
structure RunCounts where
  total : Int
  passed : Int := 0
  failed : Int := 0
  pending : Int := 0
  duration : Int := 0
  deriving DecidableEq, Repr, Inhabited

namespace RunCounts

/-- The cases that have a result. -/
def completed (c : RunCounts) : Int := c.passed + c.failed

/-- The form of the counts in a snapshot. -/
def toJson (c : RunCounts) : Json :=
  .obj [ ("total", .int c.total), ("passed", .int c.passed), ("failed", .int c.failed),
    ("pending", .int c.pending), ("duration", .int c.duration) ]

/-- The counts with one more result. -/
def record (c : RunCounts) (s : CaseStatus) : RunCounts :=
  match s with
  | .pass => { c with pending := c.pending - 1, passed := c.passed + 1 }
  | .fail => { c with pending := c.pending - 1, failed := c.failed + 1 }

end RunCounts

/-! ## 2. Runs -/

/-- The results by case id; none where a case has no result yet. -/
abbrev CaseResults := List (String × Option CaseResult)

/-- The result of a case. -/
def CaseResults.result? (rs : CaseResults) (id : String) : Option CaseResult :=
  (rs.lookup id).join

/-- The results with that of a case in its place, or at the end. -/
def CaseResults.put : CaseResults → String → CaseResult → CaseResults
  | [], id, r => [(id, some r)]
  | (k, v) :: rest, id, r => if k = id then (k, some r) :: rest else (k, v) :: put rest id r

/-- An execution of test cases. -/
structure Run where
  id : String
  project : String
  testCases : List TestCase
  config : RunConfig
  status : RunStatus := .pending
  counts : RunCounts
  caseResults : CaseResults
  createdAt : Instant
  startedAt : Option Instant := none
  completedAt : Option Instant := none
  error : Option String := none
  deriving Inhabited

/-- Why there is no such run. -/
inductive RunFault where
  | sharedCaseId
  deriving DecidableEq, Repr

/-- The wording of a fault. -/
def RunFault.message : RunFault → String
  | .sharedCaseId => "Test case ids must be unique within a run"

namespace Run

/-- Some id stands twice in the list. -/
def hasRepeats : List String → Bool
  | [] => false
  | id :: rest => rest.contains id || hasRepeats rest

/-- No case has a result. -/
def noResults (cases : List TestCase) : CaseResults := cases.map fun c => (c.id, none)

/-- A run with the given parts; counts and results that are missing or empty say that every case is
    pending. -/
def make (run : Run) (counts : Option RunCounts) : Except RunFault Run :=
  if hasRepeats (run.testCases.map (·.id)) then .error .sharedCaseId
  else
    let total : Int := run.testCases.length
    .ok { run with
      counts := counts.getD { total, pending := total }
      caseResults := if run.caseResults.isEmpty then noResults run.testCases else run.caseResults }

/-- The id of the `number`-th run that is made: the time to the second, and the number. -/
def newId (now : Instant) (number : Nat) : String :=
  String.ofList (now.date.stamp ++ '_' :: hexadecimal 8 number)

/-- A pending run with an id of its own. -/
def create (project : String) (cases : List TestCase) (config : RunConfig) (now : Instant)
    (number : Nat) : Except RunFault Run :=
  make { id := newId now number, project, testCases := cases, config
         counts := { total := 0 }, caseResults := [], createdAt := now } none

/-- The case with an id. -/
def findCase? (run : Run) (id : String) : Option TestCase := run.testCases.find? (·.id == id)

/-- The number of cases that have a result. -/
def completed (run : Run) : Int := run.counts.completed

/-! ## 3. Snapshots -/

/-- An optional moment. -/
def momentJson : Option Instant → Json
  | none => .null
  | some t => .str t.iso

/-- The entry of a case in a snapshot. -/
def caseJson (run : Run) (c : TestCase) : Json :=
  .obj ([("testCaseId", .str c.id), ("title", .str c.title)] ++
    match run.caseResults.result? c.id with
    | none => [("status", .str "pending"), ("duration", .int 0)]
    | some r => r.fields)

/-- The snapshot of a run. -/
def toJson (run : Run) : Json :=
  .obj [ ("id", .str run.id),
    ("project", .str run.project),
    ("status", .str run.status.name),
    ("config", run.config.toJson),
    ("results", run.counts.toJson),
    ("testResults", .arr (run.testCases.map run.caseJson)),
    ("createdAt", .str run.createdAt.iso),
    ("startedAt", momentJson run.startedAt),
    ("completedAt", momentJson run.completedAt),
    ("error", .ofString? run.error) ]

end Run

end StepRunner
