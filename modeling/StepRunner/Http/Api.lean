import StepRunner.Http.Envelope
import StepRunner.Http.Request
import StepRunner.Suite.Basic
import StepRunner.Supervisor.Requests

/-!
# The API of a runner

`Service.answer` answers a request: it starts a run from a suite, shows a run, cancels it, or opens
the stream of its events. Whoever opens a stream may have to show a token. `Service.readStream` is what
an opened stream carries.
-/

namespace StepRunner.Http

open Text

/-- A runner that is reached by requests. -/
structure Service where
  supervisor : Supervisor
  /-- The runs made so far, from which the next one has its number. -/
  made : Nat := 0
  /-- Who may observe a run: by token, if one was shown, and run. -/
  authorize : Option String → String → Bool := fun _ _ => true
  deriving Inhabited

/-- An answer. -/
inductive Answer where
  | json (status : Nat) (body : Json)
  /-- An event stream, carried by a subscription. -/
  | stream (subscription : Nat)
  /-- A page without JSON. -/
  | page (status : Nat)

namespace Service

/-! ## 1. Envelopes of failure -/

/-- An answer with the envelope of a failure. -/
def refuse (status : Nat) (code message : String) : Answer := .json status (failure code message .null)

/-- Something went wrong inside. -/
def internalError : Answer := refuse 500 "INTERNAL_ERROR" "Internal server error"

/-- There is no such run. -/
def notFound (id : String) : Answer := refuse 404 "RUN_NOT_FOUND" ("Run not found: " ++ id)

/-- The answer with an envelope, if there is one. -/
def enveloped (status : Nat) : Except SnapshotFault Json → Answer
  | .ok j => .json status j
  | .error _ => internalError

/-! ## 2. Starting runs -/

/-- The body of a request without a mark of its byte order. -/
def bodyText (r : Request) : String :=
  match r.body.toList with
  | '\ufeff' :: rest => String.ofList rest
  | _ => r.body

/-- The JSON value of a request's body, if it is declared and readable. -/
def bodyJson? (r : Request) : Option Json :=
  if r.isJson then (Json.parse (bodyText r)).toOption else none

/-- Why no run is started. -/
inductive StartFault where
  | noObject
  | suite (violation : Violation)
  | config (message : String)
  | unknownCase
  | internal

/-- The answer to a request that started no run. -/
def StartFault.answer : StartFault → Answer
  | .noObject => refuse 400 "INVALID_REQUEST" "Request body must be a JSON object"
  | .suite v => refuse 400 "INVALID_SUITE" v.breach.message
  | .config m => refuse 400 "INVALID_CONFIG" m
  | .unknownCase => refuse 400 "UNKNOWN_TEST_CASE" "caseIds references unknown test cases"
  | .internal => internalError

/-- The fault of a suite as one of starting a run. -/
def StartFault.ofSuite : SuiteFault → StartFault
  | .schema v => .suite v
  | .config f => .config f.message
  | .duplicateCase id => .config (SuiteFault.duplicateCase id).message
  | .noPair i n => .config (SuiteFault.noPair i n).message
  | _ => .internal

/-- The cases that a request selects: all of them where it lists none. -/
def chosen (cases : List TestCase) (ids : Json) : Except StartFault (List TestCase) :=
  match selection ids with
  | .error _ => .error .internal
  | .ok [] => .ok cases
  | .ok wanted =>
    let picked := chosenCases cases wanted
    if picked.length = (sortedOnce wanted).length then .ok picked else .error .unknownCase

/-- The suite that a request brings, with the cases that it selects. -/
def suiteOf (r : Request) : Except StartFault Suite := do
  let some data := (bodyJson? r).filter Json.isTruthy | throw .noObject
  let suite ← (Suite.ofJson data .null).mapError StartFault.ofSuite
  return { suite with testCases := ← chosen suite.testCases (data.getD "caseIds") }

/-- The refusal of a supervisor as a fault of starting a run. -/
def StartFault.ofRefusal : Refusal → StartFault
  | .save (@SaveFault.badName reason) => .config reason
  | .save _ => .internal
  | .unknownRun _ => .internal
  | .noProgress _ => .internal
  | .noRetention => .internal
  | refusal => .config refusal.message

/-- Starts a run and answers how it stands. -/
def startRun (s : Service) (r : Request) : Answer × Service :=
  match suiteOf r with
  | .error fault => (fault.answer, s)
  | .ok suite =>
    let number := s.made + 1
    let s := { s with made := number }
    match Run.create suite.project suite.testCases suite.config s.supervisor.now number with
    | .error fault => ((StartFault.config fault.message).answer, s)
    | .ok run =>
      match s.supervisor.start run with
      | (.error refusal, supervisor) =>
        ((StartFault.ofRefusal refusal).answer, { s with supervisor })
      | (.ok _, supervisor) =>
        (enveloped 202 (ofRun ((supervisor.run? run.id).getD run)), { s with supervisor })

/-! ## 3. Looking at runs -/

/-- Shows a run. -/
def showRun (s : Service) (id : String) : Answer :=
  match s.supervisor.snapshot? id with
  | none => notFound id
  | some snapshot => enveloped 200 (ofSnapshot snapshot)

/-- The answer on a run that cannot be cancelled. -/
def notCancelled (s : Service) (id : String) : Answer :=
  match s.supervisor.snapshot? id with
  | none => notFound id
  | some snapshot =>
    match snapshotField snapshot "status" with
    | .ok status =>
      refuse 409 "RUN_NOT_CANCELLABLE" ("Run " ++ id ++ " is already " ++ status.plain)
    | .error _ => internalError

/-- Cancels a run. -/
def cancelRun (s : Service) (id : String) : Answer × Service :=
  match s.supervisor.cancel id with
  | (.error _, supervisor) => (internalError, { s with supervisor })
  | (.ok true, supervisor) =>
    (.json 200 (success (.obj [("runId", .str id), ("cancelled", .bool true)]) .null),
      { s with supervisor })
  | (.ok false, supervisor) => (notCancelled { s with supervisor } id, { s with supervisor })

/-! ## 4. Streams -/

/-- The token that a request shows: as a bearer, or else in its query. -/
def token? (r : Request) : Option String :=
  let given := ((r.header? "Authorization").getD "").toList
  match after? "bearer ".toList (lower given) with
  | some _ => some (String.ofList (trim (given.drop 7))) |>.filter (· != "")
  | none => r.parameter? "token"

/-- Opens the stream of a run's events. -/
def openStream (s : Service) (r : Request) (id : String) : Answer × Service :=
  if s.authorize (token? r) id then
    match s.supervisor.subscribe id with
    | (.ok n, supervisor) => (.stream n, { s with supervisor })
    | (.error (.unknownRun _), supervisor) => (notFound id, { s with supervisor })
    | (.error (.noProgress (.missingKey _)), supervisor) => (notFound id, { s with supervisor })
    | (.error _, supervisor) => (.page 500, { s with supervisor })
  else (refuse 403 "FORBIDDEN" "Not allowed to observe this run", s)

/-- What a stream carries up to now, after which it is closed. -/
def readStream (s : Service) (n : Nat) : String × Service :=
  let (events, b) := s.supervisor.broadcaster.drain n
  (String.join (events.map Event.frame),
    { s with supervisor := { s.supervisor with broadcaster := b.close n } })

/-! ## 5. Requests -/

/-- The answer of a route. -/
def follow (s : Service) (r : Request) : Route → Answer × Service
  | .health => (.json 200 (success (.obj [("status", .str "ok")]) .null), s)
  | .runs => s.startRun r
  | .run id => (s.showRun id, s)
  | .cancel id => s.cancelRun id
  | .stream id => s.openStream r id
  | .asset => (.page 404, s)

/-- An answer without its body. -/
def headOf : Answer → Answer
  | .json status _ => .page status
  | answer => answer

/-- Answers a request. -/
def answer (s : Service) (r : Request) : Answer × Service :=
  match r.destination with
  | .nowhere => (.page 404, s)
  | .wrongMethod => (.page 405, s)
  | .moved => (.page 308, s)
  | .found route =>
    if r.method == "OPTIONS" then (.page 200, s)
    else if r.method == "HEAD" then
      let (a, s) := s.follow r route
      (headOf a, s)
    else s.follow r route

end Service

end StepRunner.Http
