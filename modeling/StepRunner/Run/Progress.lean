import StepRunner.Run.Basic

/-!
# How a run goes on

The steps of a run's life: `Run.started`, `Run.recorded` for the result of a case, `Run.ended` for a
terminal status and `Run.failed` for the one with an error text. The duration of a run is counted from
its start, or from its creation where it never started.
-/

namespace StepRunner.Run

/-- The run is pending or running. -/
def isOpen (run : Run) : Bool := !run.status.isTerminal

/-- The run under way. -/
def started (run : Run) (now : Instant) : Run :=
  { run with status := .running, startedAt := some now }

/-- A result for the case would be its first, and the run is under way. -/
def awaits (run : Run) (caseId : String) : Bool :=
  run.status == .running && (run.caseResults.result? caseId).isNone

/-- The run with the result of a case. -/
def recorded (run : Run) (caseId : String) (r : CaseResult) : Run :=
  { run with
    caseResults := run.caseResults.put caseId r
    counts := run.counts.record r.status }

/-- The moment from which the duration is counted. -/
def origin (run : Run) : Instant := run.startedAt.getD run.createdAt

/-- The run in a terminal status. -/
def ended (run : Run) (status : RunStatus) (now : Instant) : Run :=
  { run with
    status
    completedAt := some now
    counts := { run.counts with duration := run.origin.millisecondsSince now } }

/-- The run that failed. -/
def failed (run : Run) (message : String) (now : Instant) : Run :=
  { run.ended .failed now with error := some message }

@[simp] theorem started_id (run : Run) (now : Instant) : (run.started now).id = run.id := rfl

@[simp] theorem recorded_id (run : Run) (caseId : String) (r : CaseResult) :
    (run.recorded caseId r).id = run.id := rfl

@[simp] theorem ended_id (run : Run) (status : RunStatus) (now : Instant) :
    (run.ended status now).id = run.id := rfl

@[simp] theorem failed_id (run : Run) (message : String) (now : Instant) :
    (run.failed message now).id = run.id := rfl

end StepRunner.Run
