import StepRunner.Archive
import StepRunner.Broadcast
import StepRunner.Run.Progress
import StepRunner.Settings
import StepRunner.Supervisor.Lines

/-!
# Supervisors

A `Supervisor` owns every run that is registered with it and is the only one to change it. This
module holds its state and what all its operations are made of:

* `RunState`: a run and how far its dispatch has come;
* `Change`: one indivisible change of a run's state, as data: the state it leads to, whether the run is
  saved, and what operator and observers are told;
* `Supervisor.take`: a change is carried out, in that order. A snapshot that cannot be written is told
  and passed over; any other fault of a save cuts the change short and goes on to the caller;
* `Supervisor.leave`: a run at rest, which joins the queue for eviction; the queue keeps as many runs
  as the settings say, and the oldest beyond that leave memory.
-/

namespace StepRunner

/-! ## 1. State -/

/-- What a case hands in when it ends. -/
inductive HandedIn where
  | result (r : CaseResult)
  /-- No browser session could be opened. -/
  | noSession (message : String)
  deriving DecidableEq, Repr

/-- The cases of a run under way: those that wait for a slot, those in flight, and those that have
    ended and that nobody has looked at yet. -/
structure Pool where
  /-- How many cases may be in flight at once. -/
  slots : Nat
  waiting : List TestCase
  inFlight : List TestCase := []
  finished : List (TestCase × HandedIn) := []
  /-- The moment at which the time limit is reached. -/
  deadline : Instant
  deriving DecidableEq, Repr, Inhabited

namespace Pool

/-- The free slots. -/
def free (p : Pool) : Nat := p.slots - p.inFlight.length

/-- The cases that take the free slots. -/
def entering (p : Pool) : List TestCase := p.waiting.take p.free

/-- The pool with its free slots taken. -/
def filled (p : Pool) : Pool :=
  { p with waiting := p.waiting.drop p.free, inFlight := p.inFlight ++ p.entering }

/-- The pool in which a case that was in flight has ended. -/
def withEnd (p : Pool) (c : TestCase) (x : HandedIn) : Pool :=
  { p with inFlight := p.inFlight.filter (·.id != c.id), finished := p.finished ++ [(c, x)] }

/-- The pool without a case that has ended. -/
def without (p : Pool) (caseId : String) : Pool :=
  { p with finished := p.finished.eraseP (·.1.id == caseId) }

/-- No case is in flight, and none has ended unseen. -/
def isQuiet (p : Pool) : Bool := p.inFlight.isEmpty && p.finished.isEmpty

/-- No case is left. -/
def isEmpty (p : Pool) : Bool := p.waiting.isEmpty && p.isQuiet

end Pool

/-- How far the dispatch of a run has come. -/
inductive Dispatch where
  | idle
  /-- It was asked for. -/
  | called
  /-- The run is under way, and its pool is not open yet. -/
  | begun
  | active (pool : Pool)
  /-- Something broke; the run fails once the cases in flight are through. -/
  | broken (message : String)
  /-- All that is left is to put the run to rest. -/
  | leaving
  | ended
  deriving DecidableEq, Repr, Inhabited

/-- What a supervisor knows about a run. -/
structure RunState where
  run : Run
  dispatch : Dispatch := .idle
  /-- The cases that were ever in flight, in the order in which they entered. -/
  entered : List TestCase := []
  /-- Nobody has to wait for the run any more. -/
  done : Bool := false
  deriving Inhabited

namespace RunState

/-- The cases in flight. -/
def inFlight (st : RunState) : List TestCase :=
  match st.dispatch with
  | .active pool => pool.inFlight
  | _ => []

/-- The case of an id, if it is in flight. -/
def inFlight? (st : RunState) (caseId : String) : Option TestCase :=
  st.inFlight.find? (·.id == caseId)

end RunState

/-- The owner of runs. -/
structure Supervisor where
  settings : Settings
  archive : Archive
  now : Instant
  /-- The runs in memory, in the order of their registration. -/
  runs : List RunState := []
  /-- The ids of the runs at rest in memory, the oldest first. -/
  retired : List String := []
  /-- The runs that left memory, as they were when they did. -/
  evicted : List RunState := []
  broadcaster : Broadcaster := {}
  journal : List JournalLine := []
  deriving Inhabited

/-- An indivisible change of a run's state. -/
structure Change where
  /-- The state of the run afterwards. -/
  next : RunState
  /-- The run is saved. -/
  saved : Bool := false
  /-- Where the dispatch stands if the save breaks. -/
  ifBroken : SaveFault → Dispatch := fun _ => next.dispatch
  /-- What the operator is told before the save. -/
  before : List JournalLine := []
  /-- What the operator is told after it. -/
  lines : List JournalLine := []
  /-- What the observers are told at the end. -/
  news : List Happening := []
  /-- The run is put to rest. -/
  leaves : Bool := false

namespace Supervisor

/-! ## 2. Looking up and changing -/

/-- The state of a run in memory. -/
def state? (s : Supervisor) (id : String) : Option RunState := s.runs.find? (·.run.id == id)

/-- A run in memory. -/
def run? (s : Supervisor) (id : String) : Option Run := (s.state? id).map (·.run)

/-- Changes the state of a run. -/
def update (s : Supervisor) (id : String) (f : RunState → RunState) : Supervisor :=
  { s with runs := s.runs.map fun st => if st.run.id = id then f st else st }

/-- Puts a state in the place of the one of its run. -/
def put (s : Supervisor) (st : RunState) : Supervisor := s.update st.run.id fun _ => st

/-- Adds lines to the journal. -/
def tell (s : Supervisor) (lines : List JournalLine) : Supervisor :=
  { s with journal := s.journal ++ lines }

/-- Tells the observers of a run what happened. -/
def publish (s : Supervisor) (id : String) (news : List Happening) : Supervisor :=
  { s with broadcaster := news.foldl (fun b h => b.publish id ⟨id, h⟩) s.broadcaster }

/-! ## 3. Saving -/

/-- Saves a run. That its snapshot cannot be written is told and passed over; any other fault is
    the answer. -/
def persist (s : Supervisor) (run : Run) : Option SaveFault × Supervisor :=
  match s.archive.save run with
  | (.ok _, archive) => (none, { s with archive })
  | (.error (.persistence m), archive) => (none, { s with archive }.tell [.notSaved run m])
  | (.error fault, archive) => (some fault, { s with archive })

/-! ## 4. Runs at rest -/

/-- How many runs at rest stay in memory. -/
def retention (s : Supervisor) : Nat := s.settings.retainedRuns.toNat

/-- There can be a queue within the limit. -/
def canRetain (s : Supervisor) : Bool := 0 ≤ s.settings.retainedRuns

/-- Lets the oldest runs at rest beyond the limit leave memory. -/
def evict (s : Supervisor) : Supervisor :=
  let excess := s.retired.length - s.retention
  let leaving := s.retired.take excess
  { s with
    retired := s.retired.drop excess
    runs := s.runs.filter fun st => !leaving.contains st.run.id
    evicted := s.evicted ++ leaving.filterMap s.state? }

/-- Puts a run into the queue for eviction, unless it is there. -/
def retire (s : Supervisor) (id : String) : Supervisor :=
  if s.retired.contains id || (s.state? id).isNone then s
  else { s with retired := s.retired ++ [id] }.evict

/-- Puts a run to rest. -/
def leave (s : Supervisor) (id : String) : Supervisor :=
  (s.update id fun st => { st with done := st.done || s.canRetain }).retire id

/-! ## 5. Changes -/

/-- Saves what a change saves. -/
def keep (s : Supervisor) (t : Change) : Option SaveFault × Supervisor :=
  if t.saved then s.persist t.next.run else (none, s)

/-- Tells what a change tells, and puts the run to rest if the change does. -/
def conclude (s : Supervisor) (t : Change) : Supervisor :=
  let s := (s.tell t.lines).publish t.next.run.id t.news
  if t.leaves then s.leave t.next.run.id else s

/-- Carries out a change. The answer is the fault that broke its save, if one did. -/
def take (s : Supervisor) (t : Change) : Option SaveFault × Supervisor :=
  match ((s.tell t.before).put t.next).keep t with
  | (some fault, s) => (some fault, s.put { t.next with dispatch := t.ifBroken fault })
  | (none, s) => (none, s.conclude t)

end Supervisor

end StepRunner
