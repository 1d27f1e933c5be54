import StepRunner.Supervisor.History

/-!
# A run to show things on

The smallest run there is something to say about, and a supervisor to register it with.
-/

namespace StepRunner.Sample

/-- The case of the run. -/
def case : TestCase := { id := "c1", title := "Log in" }

/-- The id of the run. -/
def runId : String := "10101T000000Z_00000001"

/-- A pending run of one case. -/
def run (timeLimit : Nat) : Run :=
  { id := runId
    project := "shop"
    testCases := [case]
    config := { timeLimit := .milliseconds timeLimit }
    counts := { total := 1, pending := 1 }
    caseResults := [("c1", none)]
    createdAt := ⟨0⟩ }

/-- A store that is empty, behind saves that may be stopped. -/
def archive (faultAt : Nat → Option SaveFault) : Archive := { store := .memory [], faultAt }

/-- A supervisor that keeps some runs at rest in memory. -/
def supervisor (retainedRuns : Int) (faultAt : Nat → Option SaveFault) : Supervisor :=
  .new { retainedRuns } (archive faultAt) ⟨0⟩

/-- No snapshot can be written. -/
def diskFull (_ : Nat) : Option SaveFault := some (.persistence "disk full")

/-- The run is the first that is made. -/
theorem create_run (timeLimit : Nat) :
    Run.create "shop" [case] { timeLimit := .milliseconds timeLimit } ⟨0⟩ 1 = .ok (run timeLimit) := by
  have hid : Run.newId ⟨0⟩ 1 = runId := by decide +kernel
  show Except.ok { run timeLimit with id := Run.newId ⟨0⟩ 1 } = .ok (run timeLimit)
  rw [hid]
  rfl

/-- The result of a case that passed. -/
def pass : CaseResult :=
  { status := .pass, message := none, startedAt := ⟨0⟩, completedAt := ⟨0⟩, duration := 0 }

/-- A history in which the run is registered and its case passes. -/
def passing (timeLimit : Nat) : List Move :=
  [ .register (run timeLimit), .occur runId .launch, .occur runId .begin, .occur runId .openPool,
    .occur runId .fill, .occur runId (.handIn "c1" (.result pass)), .occur runId (.collect "c1"),
    .occur runId .complete, .occur runId .depart ]

/-- A history in which the dispatch of a run is over before its pool opens, since there is no moment for
    its time limit. -/
def lost : List Move :=
  [ .register (run (Number.tenTo 400)), .occur runId .launch, .occur runId .begin,
    .occur runId .openPool, .occur runId .depart ]

/-- Another case. -/
def other : TestCase := { id := "c2", title := "Log out" }

/-- A pending run of two cases, of which so many may run at once. -/
def pair (concurrency : Nat) : Run :=
  { run 1000 with
    testCases := [case, other]
    config := { concurrency, timeLimit := .milliseconds 1000 }
    counts := { total := 2, pending := 2 }
    caseResults := [("c1", none), ("c2", none)] }

/-- A history in which the run of two cases is under way, and the first has ended. -/
def halfway : List Move :=
  [ .register (pair 1), .occur runId .launch, .occur runId .begin, .occur runId .openPool,
    .occur runId .fill, .occur runId (.handIn "c1" (.result pass)) ]

/-- Another pending run. -/
def second : Run := { run 1000 with id := "10101T000000Z_00000002" }

/-- A history in which one run passes, and another is cancelled before its dispatch is asked for. -/
def both : List Move := passing 1000 ++ [.register second, .occur second.id .cancel]

end StepRunner.Sample
