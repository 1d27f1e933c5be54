/-!
# The journal of a run

What a run tells its operator while it goes on: lines of three severities, in order.
-/

namespace StepRunner

/-- How much a line matters. -/
inductive Severity where
  | info
  | warning
  | error
  deriving DecidableEq, Repr

/-- The name of a severity. -/
def Severity.name : Severity → String
  | .info => "INFO"
  | .warning => "WARNING"
  | .error => "ERROR"

/-- A line of the journal. -/
structure JournalLine where
  severity : Severity
  text : String
  deriving DecidableEq, Repr

end StepRunner
