import StepRunner.Store

/-!
# Archives

An `Archive` is a store together with what was handed to it: how many saves were asked for, and the
state of every run that got as far as the store. Any save may be stopped by a fault of its own before
it reaches the store, as a full disk or a broken connection would; `faultAt` says which.
-/

namespace StepRunner

/-- What a save was about. -/
structure SavedState where
  runId : String
  status : RunStatus
  completed : Int
  deriving DecidableEq, Repr

/-- The state of a run as a save reports it. -/
def Run.savedState (run : Run) : SavedState := ⟨run.id, run.status, run.completed⟩

/-- A store and the saves that it was asked for. -/
structure Archive where
  store : Store
  /-- The fault that stops a save, by the number of the save from one. -/
  faultAt : Nat → Option SaveFault := fun _ => none
  /-- The saves so far, stopped ones too. -/
  calls : Nat := 0
  /-- The saves that were not stopped, in order. -/
  saved : List SavedState := []
  deriving Inhabited

namespace Archive

/-- Saves a run, unless a fault stops the save. -/
def save (a : Archive) (run : Run) : Except SaveFault Unit × Archive :=
  let calls := a.calls + 1
  match a.faultAt calls with
  | some fault => (.error fault, { a with calls })
  | none =>
    let (r, store) := a.store.save run
    (r, { a with calls, store, saved := a.saved ++ [run.savedState] })

/-- The latest snapshot of a run; none where there is none to be had. -/
def snapshot? (a : Archive) (id : String) : Option Json := a.store.snapshot? id

end Archive

end StepRunner
