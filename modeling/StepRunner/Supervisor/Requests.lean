import StepRunner.Supervisor.Dispatch
import StepRunner.Supervisor.Stored

/-!
# What a supervisor can be asked

* `register` takes over a pending run under an id that is neither in memory nor in the store;
* `launch` asks for its dispatch, once; after `start` the run has settled too;
* `revoke` ends a run that has not ended; after `cancel` the run has settled too;
* `run?`, `snapshot?`, `wait` and `subscribe` look at a run; of one that has left memory only the
  stored snapshot is left;
* `shutDown` cancels every run in memory.
-/

namespace StepRunner

/-! ## 1. Refusals -/

/-- Why a request was refused. -/
inductive Refusal where
  | notPending (id : String) (status : RunStatus)
  | alreadyRegistered (id : String)
  | alreadyStarted (id : String)
  | unknownRun (id : String)
  /-- The stored snapshot does not tell how far the run is. -/
  | noProgress (fault : StoredFault)
  | save (fault : SaveFault)
  /-- The queue for eviction cannot be within a limit below zero. -/
  | noRetention
  deriving DecidableEq, Repr

/-- The wording of a refusal. -/
def Refusal.message : Refusal → String
  | .notPending id status => "Run " ++ id ++ " must be pending to register, got " ++ status.name
  | .alreadyRegistered id => "Run " ++ id ++ " is already registered"
  | .alreadyStarted id => "Run " ++ id ++ " has already been started"
  | .unknownRun id => id
  | .noProgress f => f.message
  | .save f => f.message
  | .noRetention => "pop from an empty deque"

namespace Supervisor

/-! ## 2. Taking over and starting -/

/-- The id of a run is in memory or in the store. -/
def knows (s : Supervisor) (id : String) : Bool :=
  (s.archive.snapshot? id).isSome || (s.state? id).isSome

/-- A run can be taken over. -/
def accepts (s : Supervisor) (run : Run) : Bool := run.status == .pending && !s.knows run.id

/-- Takes over a run. -/
def register (s : Supervisor) (run : Run) : Except Refusal Unit × Supervisor :=
  if run.status ≠ .pending then (.error (.notPending run.id run.status), s)
  else if s.knows run.id then (.error (.alreadyRegistered run.id), s)
  else
    match { s with runs := s.runs ++ [{ run }] : Supervisor }.persist run with
    | (some fault, s) => (.error (.save fault), s)
    | (none, s) => (.ok (), s.tell [.registered run])

/-- Asks for the dispatch of a run in memory, unless it was asked for before. -/
def launchKnown (s : Supervisor) (id : String) : Except Refusal Unit × Supervisor :=
  match s.state? id with
  | none => (.error (.unknownRun id), s)
  | some st =>
    if st.dispatch = .idle then (.ok (), s.occur id .launch) else (.error (.alreadyStarted id), s)

/-- Asks for the dispatch of a run, which is taken over first where it is not in memory. -/
def launch (s : Supervisor) (run : Run) : Except Refusal Unit × Supervisor :=
  if (s.state? run.id).isSome then s.launchKnown run.id
  else
    match s.register run with
    | (.error refusal, s) => (.error refusal, s)
    | (.ok _, s) => s.launchKnown run.id

/-- Starts a run, which then settles. -/
def start (s : Supervisor) (run : Run) : Except Refusal Unit × Supervisor :=
  let (r, s) := s.launch run
  (r, s.settle run.id)

/-! ## 3. Cancelling -/

/-- Cancels a run. The answer is whether there was anything to cancel. -/
def revoke (s : Supervisor) (id : String) : Except Refusal Bool × Supervisor :=
  match s.change? id .cancel with
  | none => (.ok false, s)
  | some t =>
    match s.take t with
    | (some fault, s) => (.error (.save fault), s)
    | (none, s) => (if t.leaves && !s.canRetain then .error .noRetention else .ok true, s)

/-- Cancels a run, which then settles. -/
def cancel (s : Supervisor) (id : String) : Except Refusal Bool × Supervisor :=
  let (r, s) := s.revoke id
  (r, s.settle id)

/-- Cancels runs one after the other, up to the first that cannot be saved. -/
def cancelAll (s : Supervisor) : List String → Except Refusal Unit × Supervisor
  | [] => (.ok (), s)
  | id :: rest =>
    match s.cancel id with
    | (.error refusal, s) => (.error refusal, s)
    | (.ok _, s) => s.cancelAll rest

/-- Cancels every run in memory. -/
def shutDown (s : Supervisor) : Except Refusal Unit × Supervisor :=
  s.cancelAll (s.runs.map (·.run.id))

/-! ## 4. Looking -/

/-- The snapshot of a run, from memory or else from the store. -/
def snapshot? (s : Supervisor) (id : String) : Option Json :=
  match s.run? id with
  | some run => some run.toJson
  | none => s.archive.snapshot? id

/-- Nobody has to wait for the run any more. -/
def wait (s : Supervisor) (id : String) : Except Refusal Bool :=
  match s.state? id with
  | some st => .ok st.done
  | none => if (s.archive.snapshot? id).isSome then .ok true else .error (.unknownRun id)

/-- Opens a stream of events that begins with the progress so far. Of a run that has left memory or
    has ended there is nothing more to come. -/
def subscribe (s : Supervisor) (id : String) : Except Refusal Nat × Supervisor :=
  match s.run? id with
  | some run =>
    let (n, b) := s.broadcaster.subscribe id [Event.progressOf run]
    (.ok n, { s with broadcaster := if run.isOpen then b else b.close n })
  | none =>
    match s.archive.snapshot? id with
    | none => (.error (.unknownRun id), s)
    | some snapshot =>
      match storedProgress snapshot with
      | .error fault => (.error (.noProgress fault), s)
      | .ok h =>
        let (n, b) := s.broadcaster.addClosed id [⟨id, h⟩]
        (.ok n, { s with broadcaster := b })

end Supervisor

end StepRunner
