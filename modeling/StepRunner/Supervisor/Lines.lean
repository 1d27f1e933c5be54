import StepRunner.Journal
import StepRunner.Json.Display
import StepRunner.Run.Basic

/-!
# What a supervisor tells its operator

The journal lines about the life of a run, one function for each occasion.
-/

namespace StepRunner.JournalLine

open Number

/-- The run was taken over. -/
def registered (run : Run) : JournalLine :=
  ⟨.info, "Registered run " ++ run.id ++ " with " ++ numeral run.testCases.length ++ " test cases"⟩

/-- A snapshot of the run was not saved. -/
def notSaved (run : Run) (message : String) : JournalLine :=
  ⟨.warning, "Failed to persist run " ++ run.id ++ ": " ++ message⟩

/-- The run had ended before its dispatch began. -/
def notDispatched (run : Run) : JournalLine :=
  ⟨.info, "Run " ++ run.id ++ " is " ++ run.status.name ++ ", not dispatching"⟩

/-- The run is under way. -/
def started (run : Run) (workers : Int) : JournalLine :=
  ⟨.info, "Run " ++ run.id ++ " started: " ++ numeral run.testCases.length ++ " cases, "
    ++ numeral workers ++ " workers, environment=" ++ run.config.environment.plain
    ++ ", aiOptimization=" ++ run.config.aiOptimization.plain⟩

/-- Something broke in the dispatch of the run. -/
def dispatchBroke (run : Run) : JournalLine :=
  ⟨.error, "Dispatcher for run " ++ run.id ++ " crashed"⟩

/-- A case has a result. -/
def caseEnded (run : Run) (caseId : String) (r : CaseResult) : JournalLine :=
  ⟨.info, "Case " ++ caseId ++ " " ++ r.status.name ++ " (" ++ numeral run.counts.completed ++ "/"
    ++ numeral run.counts.total ++ ")"⟩

/-- No browser session could be opened for a case. -/
def noSession (caseId message : String) : JournalLine :=
  ⟨.error, "Browser provisioning failed for case " ++ caseId ++ ": " ++ message⟩

/-- Something broke while a case was running. -/
def caseBroke (caseId : String) : JournalLine :=
  ⟨.error, "Case runner crashed on " ++ caseId⟩

/-- The time limit of the run was reached. -/
def timeLimitReached (run : Run) : JournalLine :=
  ⟨.warning, "Run " ++ run.id ++ " exceeded " ++ numeral run.config.timeLimit.value ++ " ms"⟩

/-- The run failed. -/
def failed (run : Run) (message : String) : JournalLine :=
  ⟨.error, "Run " ++ run.id ++ " failed: " ++ message⟩

/-- The run is complete. -/
def completed (run : Run) : JournalLine :=
  ⟨.info, "Run " ++ run.id ++ " completed: " ++ numeral run.counts.passed ++ " passed, "
    ++ numeral run.counts.failed ++ " failed"⟩

/-- The run was cancelled. -/
def cancelled (run : Run) : JournalLine :=
  ⟨.info, "Run " ++ run.id ++ " cancelled (" ++ numeral run.counts.completed ++ "/"
    ++ numeral run.counts.total ++ " cases finished)"⟩

end StepRunner.JournalLine
