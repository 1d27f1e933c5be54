import StepRunner.Supervisor.Basic

/-!
# Dispatch

The dispatch of a run under way has a pool of slots, and the cases of the run enter it in order. What
can happen to a run in memory is an `Occasion`; each brings one change of
that run alone, and between two changes of a run anything else may happen.

* `RunState.on`: the change of a run on an occasion, if it is one for the run as it stands;
* `Supervisor.occur`: an occasion comes;
* `Supervisor.settle`: everything that can go on with a run by itself has gone on;
* `Supervisor.endCase`, `Supervisor.timeUp`: a case in flight ends, and the time limit of a run is
  reached, after which the run settles.

A fault that nothing here deals with lets the run fail, and its cases in flight are given up.
-/

namespace StepRunner

open Number

/-- How a case in flight ended. -/
inductive CaseOutcome where
  | result (r : CaseResult)
  /-- No browser session could be opened. -/
  | noSession (message : String)
  /-- Something broke. -/
  | broke (message : String)
  deriving Inhabited

/-- What can happen to a run in memory. -/
inductive Occasion where
  /-- Its dispatch is asked for. -/
  | launch
  /-- Its dispatch begins. -/
  | begin
  /-- The pool for its cases opens. -/
  | openPool
  /-- Waiting cases take the free slots. -/
  | fill
  /-- A case in flight ends. -/
  | handIn (caseId : String) (outcome : CaseOutcome)
  /-- What a case handed in is looked at. -/
  | collect (caseId : String)
  /-- Its last case has been looked at. -/
  | complete
  /-- The cases in flight when something broke are through. -/
  | giveUp
  /-- Its dispatch is over. -/
  | depart
  /-- Its time limit is reached. -/
  | expire
  /-- Somebody cancels it. -/
  | cancel
  deriving Inhabited

/-- The moment at which a time limit that starts now is reached; none where the limit is beyond the
    binary64 format. -/
def TimeLimit.deadline? (l : TimeLimit) (now : Instant) : Option Instant :=
  if (Binary64.ofInt l.value).isInfinite then none else some (now.later (l.value * 1000))

/-- How many cases of a run may be in flight at once. -/
def Settings.slots (settings : Settings) (config : RunConfig) : Int :=
  min config.concurrency settings.maxConcurrency

namespace Supervisor

/-- The result of a case that broke. -/
def brokenResult (now : Instant) (message : String) : CaseResult :=
  { status := .fail
    message := some ("Unexpected error: " ++ message)
    startedAt := now
    completedAt := now
    duration := 0
    error := some ErrorKind.executionError.name }

/-- The message on a run that took too long. -/
def timeLimitMessage (run : Run) : String :=
  "Run timed out after " ++ run.config.timeLimit.toJson.plain ++ " ms"

end Supervisor

/-- What a case hands in that ended now. -/
def CaseOutcome.handedIn (now : Instant) : CaseOutcome → HandedIn
  | .result r => .result r
  | .noSession m => .noSession m
  | .broke m => .result (Supervisor.brokenResult now m)

/-- What the operator is told when a case ends. -/
def CaseOutcome.lines (c : TestCase) : CaseOutcome → List JournalLine
  | .broke _ => [.caseBroke c.id]
  | _ => []

namespace RunState

/-! ## 1. The changes of a run -/

/-- The run is put to a terminal status. -/
def ends (st : RunState) (run : Run) (line : JournalLine) (h : Happening) : Change :=
  { next := { st with run }, saved := true, lines := [line], news := [h] }

/-- The run fails, unless it has ended. -/
def fails (st : RunState) (message : String) (now : Instant) : Change :=
  if st.run.status.isTerminal then { next := st }
  else st.ends (st.run.failed message now) (.failed st.run message) (.error message)

/-- The dispatch begins; it is over at once where the run has ended. -/
def begins (st : RunState) (now : Instant) : Change :=
  if st.run.status = .pending then
    let run := st.run.started now
    { next := { st with run, dispatch := .begun }
      saved := true
      ifBroken := fun _ => .leaving
      news := [.started run.toJson] }
  else { next := { st with dispatch := .leaving }, lines := [.notDispatched st.run] }

/-- The pool opens, unless there is no moment for the time limit, or no slot. -/
def opens (st : RunState) (settings : Settings) (now : Instant) : Change :=
  let workers := settings.slots st.run.config
  let dispatch : Dispatch :=
    match st.run.config.timeLimit.deadline? now with
    | none => .leaving
    | some deadline =>
      if workers ≤ 0 then .broken "max_workers must be greater than 0"
      else .active { slots := workers.toNat, waiting := st.run.testCases, deadline }
  { next := { st with dispatch }, lines := [.started st.run workers] }

/-- A result is taken; one that the run does not await is dropped. -/
def takes (st : RunState) (c : TestCase) (r : CaseResult) : Change :=
  if st.run.awaits c.id then
    let run := st.run.recorded c.id r
    { next := { st with run }
      saved := true
      ifBroken := fun fault => .broken fault.message
      lines := [.caseEnded run c.id r]
      news := [ .progress (.int run.counts.completed) (.int run.counts.total),
        .caseCompleted c.id c.title (some r) ] }
  else { next := st }

/-- The news is taken that no session could be opened for a case; the run fails. -/
def lacksSession (st : RunState) (c : TestCase) (message : String) (now : Instant) : Change :=
  if st.run.status.isTerminal then { next := st, lines := [.noSession c.id message] }
  else
    { { st with dispatch := .leaving }.fails ("Browser provisioning failed: " ++ message) now with
      before := [.noSession c.id message]
      ifBroken := fun fault => .broken fault.message }

/-- What a case handed in is taken. -/
def collects (st : RunState) (c : TestCase) (now : Instant) : HandedIn → Change
  | .result r => st.takes c r
  | .noSession message => st.lacksSession c message now

/-- The run is complete. -/
def completes (st : RunState) (now : Instant) : Change :=
  let run := st.run.ended .completed now
  { st with dispatch := .leaving }.ends run (.completed run) (.completed run.toJson)

/-- The run fails because something broke. -/
def givesUp (st : RunState) (message : String) (now : Instant) : Change :=
  { { st with dispatch := .leaving }.fails ("Dispatcher error: " ++ message) now with
    before := [.dispatchBroke st.run] }

/-- The run fails because it took too long. -/
def expires (st : RunState) (now : Instant) : Change :=
  { st.fails (Supervisor.timeLimitMessage st.run) now with before := [.timeLimitReached st.run] }

/-- The run is cancelled, and put to rest if its dispatch was never asked for. -/
def isCancelled (st : RunState) (now : Instant) : Change :=
  let run := st.run.ended .cancelled now
  { st.ends run (.cancelled run) (.cancelled run.toJson) with
    leaves := st.run.status = .pending ∧ st.dispatch = .idle }

/-- The change of a run on an occasion, if it is one for the run as it stands. -/
def on (st : RunState) (settings : Settings) (now : Instant) (o : Occasion) : Option Change :=
  match o, st.dispatch with
  | .launch, .idle => some { next := { st with dispatch := .called } }
  | .begin, .called => some (st.begins now)
  | .openPool, .begun => some (st.opens settings now)
  | .fill, .active pool =>
    if st.run.isOpen then
      some { next := { st with
        dispatch := .active pool.filled
        entered := st.entered ++ pool.entering } }
    else none
  | .handIn caseId outcome, .active pool =>
    (pool.inFlight.find? (·.id == caseId)).map fun c =>
      { next := { st with dispatch := .active (pool.withEnd c (outcome.handedIn now)) }
        lines := outcome.lines c }
  | .collect caseId, .active pool =>
    (pool.finished.find? (·.1.id == caseId)).map fun (c, x) =>
      { st with dispatch := .active (pool.without caseId) }.collects c now x
  | .complete, .active pool =>
    if st.run.isOpen then if pool.isEmpty then some (st.completes now) else none
    else if pool.isQuiet then some { next := { st with dispatch := .leaving } } else none
  | .giveUp, .broken message => some (st.givesUp message now)
  | .depart, .leaving => some { next := { st with dispatch := .ended }, leaves := true }
  | .expire, .active _ | .expire, .broken _ =>
    if st.run.isOpen then some (st.expires now) else none
  | .cancel, _ => if st.run.isOpen then some (st.isCancelled now) else none
  | _, _ => none

end RunState

namespace Supervisor

/-! ## 2. Occasions -/

/-- The change of a run in memory on an occasion. -/
def change? (s : Supervisor) (id : String) (o : Occasion) : Option Change :=
  (s.state? id).bind (·.on s.settings s.now o)

/-- An occasion comes for a run. -/
def occur (s : Supervisor) (id : String) (o : Occasion) : Supervisor :=
  match s.change? id o with
  | none => s
  | some t => (s.take t).2

/-- What goes on with a run by itself, in the order in which it does. -/
def course : List Occasion := [.begin, .openPool, .fill, .complete, .giveUp, .depart]

/-- Lets everything go on that can go on with a run by itself. -/
def settle (s : Supervisor) (id : String) : Supervisor := course.foldl (fun s o => s.occur id o) s

/-- A case in flight ends, and the run settles. -/
def endCase (s : Supervisor) (id caseId : String) (outcome : CaseOutcome) : Supervisor :=
  ((s.occur id (.handIn caseId outcome)).occur id (.collect caseId)).settle id

/-! ## 3. Time -/

/-- The time limit of a run is reached, and the run settles. -/
def timeUp (s : Supervisor) (id : String) : Supervisor := (s.occur id .expire).settle id

/-- The deadline of a run under way, if it has come. -/
def dueAt? (now : Instant) (st : RunState) : Option (Nat × String) :=
  match st.dispatch with
  | .active pool =>
    if pool.deadline.micros ≤ now.micros then some (pool.deadline.micros, st.run.id) else none
  | _ => none

/-- The runs whose time limit is reached, the earliest first. -/
def due (s : Supervisor) : List String :=
  ((s.runs.filterMap (dueAt? s.now)).mergeSort fun a b => a.1 ≤ b.1).map (·.2)

/-- Lets time go by. -/
def elapse (s : Supervisor) (micros : Nat) : Supervisor := { s with now := s.now.later micros }

end Supervisor

end StepRunner
