import StepRunner.Run.Basic

/-!
# Envelopes

Every answer of the API is an envelope: whether the request succeeded, its data or the error, and
further facts. The envelope of a run's snapshot says whether the run has ended.
-/

namespace StepRunner.Http

/-- Why a snapshot cannot be answered. -/
inductive SnapshotFault where
  /-- It is no object. -/
  | notAnObject
  | noStatus
  | unknownStatus (given : Json)

/-- The wording of a fault. -/
def SnapshotFault.message : SnapshotFault → String
  | .notAnObject => ""
  | .noStatus => "status"
  | .unknownStatus j => j.display ++ " is not a valid RunStatus"

/-- Further facts; none for what is not truthy. -/
def metaOrNone (facts : Json) : Json := if facts.isTruthy then facts else .obj []

/-- The envelope of a request that succeeded. -/
def success (data : Json) (facts : Json) : Json :=
  .obj [("success", .bool true), ("data", data), ("error", .null), ("meta", metaOrNone facts)]

/-- The envelope of a request that failed. -/
def failure (code message : String) (facts : Json) : Json :=
  .obj [ ("success", .bool false), ("data", .null),
    ("error", .obj [("code", .str code), ("message", .str message)]),
    ("meta", metaOrNone facts) ]

/-- The value of a key in a snapshot. -/
def snapshotField (snapshot : Json) (key : String) : Except SnapshotFault Json :=
  match snapshot with
  | .obj fields => match Json.find? fields key with
    | some j => .ok j
    | none => .error .noStatus
  | _ => .error .notAnObject

/-- The status that a value names. -/
def statusOf (j : Json) : Except SnapshotFault RunStatus :=
  match j.asString?.bind RunStatus.ofName? with
  | some s => .ok s
  | none => .error (.unknownStatus j)

/-- The envelope of a snapshot. -/
def ofSnapshot (snapshot : Json) : Except SnapshotFault Json := do
  let status ← statusOf (← snapshotField snapshot "status")
  return success snapshot (.obj [("terminal", .bool status.isTerminal)])

/-- The envelope of a run. -/
def ofRun (run : Run) : Except SnapshotFault Json := ofSnapshot run.toJson

end StepRunner.Http
