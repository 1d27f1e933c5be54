import StepRunner.Case.Running
import StepRunner.Report
import StepRunner.Supervisor.Requests

/-!
# Sessions

A session runs one run to its end, case after case, and prints every event of it. The operator may
interrupt a session after an event, which cancels the run; the events that follow are printed too.

* `Session.runCases`: the cases, each in a browser session of its own;
* `Session.printNew`: the printing of the events so far;
* `closingLines`: what is printed at the end.
-/

namespace StepRunner.CommandLine

open Number Files

variable {σ : Type}

/-! ## 1. Events as lines -/

/-- The line of a case that has ended. -/
def caseLine (caseId title : String) (r : CaseResult) : String :=
  let message := (Json.ofString? r.message).plain
  let mark := if r.passed then "✓ " else "✗ "
  let detail := if r.passed then message else (Json.ofString? r.error).plain ++ ": " ++ message
  mark ++ caseId ++ " " ++ title ++ " (" ++ numeral r.duration ++ " ms) - " ++ detail

/-- The line of an event. -/
def eventLine : Happening → String
  | .progress completed total => "[" ++ completed.plain ++ "/" ++ total.plain ++ "]"
  | .caseCompleted caseId title (some r) => caseLine caseId title r
  | .error message => "Run error: " ++ message
  | h => "Run " ++ h.typeName

/-! ## 2. Sessions -/

/-- A run on its way through a session. -/
structure Session (σ : Type) where
  supervisor : Supervisor
  runId : String
  /-- The subscription that carries the events of the run. -/
  stream : Nat
  /-- The state of the browser. -/
  browser : σ
  /-- The calls of all browser sessions, in order. -/
  trace : List Call := []
  /-- The lines printed so far. -/
  printed : List String := []
  /-- The events printed so far. -/
  events : Nat := 0
  /-- The number of events after which the operator interrupts. -/
  interruptAfter : Option Nat := none

namespace Session

/-- The run. -/
def run? (s : Session σ) : Option Run := s.supervisor.run? s.runId

/-- Prints a line. -/
def print (s : Session σ) (line : String) : Session σ := { s with printed := s.printed ++ [line] }

/-- Prints an event. -/
def printEvent (s : Session σ) (e : Event) : Session σ :=
  { s.print (eventLine e.happening) with events := s.events + 1 }

/-- Prints events; also whether the operator interrupted meanwhile. -/
def printEvents (s : Session σ) : List Event → Session σ × Bool
  | [] => (s, false)
  | e :: rest =>
    let s := s.printEvent e
    if s.interruptAfter = some s.events then
      let s := { s.print "\nCancelling run..." with interruptAfter := none }
      ((s.printEvents rest).1, true)
    else s.printEvents rest

/-- Takes the events that have come. -/
def takeEvents (s : Session σ) : List Event × Session σ :=
  let (events, broadcaster) := s.supervisor.broadcaster.drain s.stream
  (events, { s with supervisor := { s.supervisor with broadcaster } })

/-- Prints the events that have come, and cancels the run where the operator interrupts. -/
def printNew (s : Session σ) : Session σ :=
  let (events, s) := s.takeEvents
  let (s, interrupted) := s.printEvents events
  if interrupted then
    let (events, s) := { s with supervisor := (s.supervisor.cancel s.runId).2 }.takeEvents
    (s.printEvents events).1
  else s

/-! ## 3. Cases -/

/-- How a case ended, for the supervisor. -/
def outcomeOf : Except CaseFault CaseResult → CaseOutcome
  | .ok r => .result r
  | .error (.provision m) => .noSession m
  | .error f => .broke f.message

/-- Runs a case in flight. -/
def runCase (e : Executor) (b : Browser σ) (s : Session σ) (c : TestCase) : Session σ :=
  let ended := (s.run?.map (!·.isOpen)).getD true
  let (r, d) := (StepRunner.runCase e b c).run
    { browser := s.browser, now := s.supervisor.now, cancelled := ended }
  let supervisor :=
    { s.supervisor with now := d.now, journal := s.supervisor.journal ++ d.journal }
  { s with
    supervisor := supervisor.endCase s.runId c.id (outcomeOf r)
    browser := d.browser
    trace := s.trace ++ d.trace }

/-- The first case in flight. -/
def next? (s : Session σ) : Option TestCase :=
  (s.supervisor.state? s.runId).bind (·.inFlight.head?)

/-- Runs at most `fuel` cases, and prints what happens. -/
def runCasesFrom (e : Executor) (b : Browser σ) : Nat → Session σ → Session σ
  | 0, s => s
  | fuel + 1, s =>
    match s.next? with
    | none => s
    | some c => runCasesFrom e b fuel (s.runCase e b c).printNew

/-- Runs the cases of a run that has just been started. -/
def runCases (e : Executor) (b : Browser σ) (s : Session σ) (run : Run) : Session σ :=
  runCasesFrom e b run.testCases.length s.printNew

end Session

/-! ## 4. The end -/

/-- The line above and below a heading. -/
def ruler : String := String.ofList (List.replicate 80 '=')

/-- What is printed when a run is over. -/
def closingLines (run : Run) (folder : Path) : Except ReportFault (List String) := do
  let duration ← Report.secondsText run.counts.duration
  return ["", ruler, "Run finished", ruler, "Run ID: " ++ run.id, "Status: " ++ run.status.name]
    ++ ((run.error.filter (· != "")).map ("Error: " ++ ·)).toList
    ++ [ "Passed: " ++ numeral run.counts.passed ++ "/" ++ numeral run.counts.total,
      "Failed: " ++ numeral run.counts.failed,
      "Not run: " ++ numeral run.counts.pending,
      "Duration: " ++ duration,
      "",
      "Results directory: " ++ folder.text,
      "  - run.json: run snapshot",
      "  - runner.log: execution log",
      "  - " ++ Report.textFile ++ ": test report",
      "" ]

/-- The code with which the program ends: zero for a completed run without a failed case. -/
def exitCode (run : Run) : Nat :=
  if run.status = .completed ∧ run.counts.failed = 0 then 0 else 1

end StepRunner.CommandLine
