import StepRunner.Json.Writer
import StepRunner.Run.Basic

/-!
# Events

What happens to a run is told to its observers as events. A terminal event is the last one of its
run. `Event.toJson` is the form of an event, `Event.frame` the frame that carries it in an event
stream: a line with its type, a line with its form on one line, and an empty line.
-/

namespace StepRunner

/-- What an event tells. -/
inductive Happening where
  /-- Nothing in particular. -/
  | unspecified
  | started (run : Json)
  | progress (completed total : Json)
  | caseCompleted (caseId title : String) (result : Option CaseResult)
  | completed (run : Json)
  | cancelled (run : Json)
  | error (message : String)
  deriving Inhabited

namespace Happening

/-- The name of the type of an event. -/
def typeName : Happening → String
  | .unspecified => ""
  | .started _ => "started"
  | .progress _ _ => "progress"
  | .caseCompleted _ _ _ => "test_completed"
  | .completed _ => "completed"
  | .cancelled _ => "cancelled"
  | .error _ => "error"

/-- The run has ended with it. -/
def isTerminal : Happening → Bool
  | .completed _ | .cancelled _ | .error _ => true
  | _ => false

/-- The verdict as observers are told: what has not passed has failed. -/
def verdictName : Option CaseResult → String
  | some r => if r.passed then "PASSED" else "FAILED"
  | none => "FAILED"

/-- The fields that a type of event has of its own. -/
def fields : Happening → List (String × Json)
  | .unspecified => []
  | .started run => [("testRun", run)]
  | .progress done total => [("completed", done), ("total", total)]
  | .caseCompleted caseId title result =>
    [ ("caseId", .str caseId),
      ("result", .obj
        [ ("title", .str title),
          ("status", .str (verdictName result)),
          ("duration", .int ((result.map (·.duration)).getD 0)),
          ("message", .ofString? (result.bind (·.message))),
          ("error", .ofString? (result.bind (·.error))) ]) ]
  | .completed run => [("testRun", run)]
  | .cancelled run => [("testRun", run)]
  | .error message => [("message", .str message)]

end Happening

/-- Something that happened to a run. -/
structure Event where
  runId : String
  happening : Happening
  deriving Inhabited

namespace Event

/-- The run has ended with it. -/
def isTerminal (e : Event) : Bool := e.happening.isTerminal

/-- The form of an event. -/
def toJson (e : Event) : Json :=
  .obj ([("type", .str e.happening.typeName), ("runId", .str e.runId)] ++ e.happening.fields)

/-- The frame that carries an event in an event stream. -/
def frame (e : Event) : String :=
  "event: " ++ e.happening.typeName ++ "\ndata: " ++ e.toJson.compact ++ "\n\n"

/-- How far a run is. -/
def progressOf (run : Run) : Event :=
  ⟨run.id, .progress (.int run.counts.completed) (.int run.counts.total)⟩

end Event

end StepRunner
