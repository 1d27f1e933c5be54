import StepRunner.Step.Execution
import StepRunner.Text.Base64

/-!
# Running a case

A case with a step that speaks of a page runs in a browser session of its own; any other case is
simulated: its steps are read and logged, and it passes. In a browser the steps are carried out in
order up to the first that fails, then the expected outcome is checked; a failure is documented by a
screenshot. Whatever happens, what a session has opened is closed again.

`runCase` gives the result of a case. It fails only with a `CaseFault`: no session could be opened,
or something broke that nothing here deals with.
-/

namespace StepRunner

open Text Number

/-! ## 1. Which cases need a browser -/

/-- The words that speak of a page. -/
def browserWords : List String :=
  ["navigate", "go to", "open", "visit", "click", "press", "tap", "type", "enter", "input", "fill",
    "select", "choose", "hover", "scroll"]

/-- The step speaks of a page: by one of the words, or by an address. -/
def stepNeedsBrowser (step : String) : Bool :=
  Step.hasTrigger browserWords step.toList || hasLiteral "http" step.toList

/-- Some step of the case speaks of a page. -/
def needsBrowser (c : TestCase) : Bool := c.steps.any stepNeedsBrowser

/-! ## 2. Verdicts and faults -/

/-- How a case is run. -/
inductive Strategy where
  | browser
  | simulated
  deriving DecidableEq, Repr

/-- The name of a strategy. -/
def Strategy.name : Strategy → String
  | .browser => "browser"
  | .simulated => "simulated"

/-- What a strategy finds; times and log are added to it. -/
structure Verdict where
  status : CaseStatus
  message : String
  error : Option ErrorKind := none
  screenshot : Option String := none
  deriving DecidableEq, Repr

/-- Why a case gives no result. -/
inductive CaseFault where
  /-- No browser session could be opened. -/
  | provision (message : String)
  /-- Something broke that the runner does not deal with. -/
  | escaped (fault : StepFault)
  deriving DecidableEq, Repr

/-- The wording of a fault. -/
def CaseFault.message : CaseFault → String
  | .provision m => m
  | .escaped f => f.message

/-- A part of running a case. -/
abbrev Casing (σ : Type) := ExceptT CaseFault (Driving σ)

namespace Case

variable {σ : Type}

/-! ## 3. Sessions -/

/-- Closes what was opened and stops; a refusal to close is passed over. -/
def closeSession (b : Browser σ) : List Resource → Casing σ Unit
  | [] => do
    match ← ask b .stop with
    | .ok _ => pure ()
    | .error f => throw (.escaped (.page f))
  | r :: rest => do
    match ← ask b (.close r) with
    | .error (.crashed m) => throw (.escaped (.page (.crashed m)))
    | _ => closeSession b rest

/-- Makes a call that opens a part of a session; `opened` is closed if it fails. -/
def openPart (b : Browser σ) (opened : List Resource) (c : Call) : Casing σ Unit := do
  match ← ask b c with
  | .ok _ => pure ()
  | .error f =>
    closeSession b opened
    match f with
    | .refused m => throw (.provision ("Failed to launch browser: " ++ m))
    | .crashed m => throw (.escaped (.page (.crashed m)))

/-- Opens a session, whose page then reports its lines. -/
def openSession (b : Browser σ) (settings : Settings) : Casing σ Unit := do
  match ← ask b .start with
  | .ok _ => pure ()
  | .error (.refused m) => throw (.provision ("Failed to start Playwright: " ++ m))
  | .error f => throw (.escaped (.page f))
  openPart b [] (.launch settings.headless)
  openPart b [.browser] (.newContext settings.viewportWidth settings.viewportHeight)
  openPart b [.context, .browser] .newPage
  modify fun d => { d with listening := true }

/-- Does something in a session that is closed afterwards, however it ends. -/
def inSession {α : Type} (b : Browser σ) (settings : Settings) (use : Casing σ α) : Casing σ α := do
  openSession b settings
  match ← ExceptT.lift use.run with
  | .ok a =>
    closeSession b [.context, .browser]
    return a
  | .error f =>
    closeSession b [.context, .browser]
    throw f

/-! ## 4. In a browser -/

/-- The steps from number `index` on, up to the first that fails or finds the run cancelled. -/
def carryOut (e : Executor) (b : Browser σ) : Nat → List String → Stepping σ Unit
  | _, [] => return ()
  | index, text :: rest => do
    if (← getThe (Drive σ)).cancelled then
      throw (.failed .cancelled ("Test case cancelled before step " ++ numeral index))
    let step ← match parseStep text with
      | .ok step => pure step
      | .error f => throw (.read f)
    Executor.say (stripRight ("Step " ++ numeral index ++ ": " ++ text ++ " -> "
      ++ step.action.name ++ " " ++ step.target.getD ""))
    e.execute b step
    carryOut e b (index + 1) rest

/-- What stands before the characters of a screenshot. -/
def imagePrefix : String := "data:image/png;base64,"

/-- Takes a screenshot; a refusal is noted. -/
def capture (b : Browser σ) : Casing σ (Option String) := do
  match ← ask b .screenshot with
  | .ok reply =>
    note (σ := σ) "Failure screenshot captured"
    return some (imagePrefix ++ String.ofList (Base64.encode reply.bytes))
  | .error (.refused m) =>
    report (σ := σ) ("Screenshot capture failed: " ++ m)
    note (σ := σ) ("Screenshot capture failed: " ++ m)
    return none
  | .error f => throw (.escaped (.page f))

/-- The verdict on a case that failed. -/
def failure (b : Browser σ) (c : TestCase) : StepFault → Casing σ Verdict
  | .failed kind m => do
    note (σ := σ) (kind.name ++ ": " ++ m)
    let screenshot ← if kind = .cancelled then pure none else capture b
    return { status := .fail, message := m, error := some kind, screenshot }
  | fault => do
    let m := "Unexpected error: " ++ fault.message
    report (σ := σ) ("Unexpected error in test case " ++ c.id)
    note (σ := σ) m
    let screenshot ← capture b
    return { status := .fail, message := m, error := some .executionError, screenshot }

/-- The verdict on a case that passed all its steps. -/
def success (c : TestCase) : Verdict :=
  { status := .pass, message := "All " ++ numeral c.steps.length ++ " steps passed" }

/-- Carries out the steps and checks the expected outcome. -/
def attemptSteps (e : Executor) (b : Browser σ) (c : TestCase) : Stepping σ Unit := do
  carryOut e b 1 c.steps
  Executor.validate b c.expectedResult

/-- The verdict on a failure, or none where all steps passed. -/
def failureIn (e : Executor) (b : Browser σ) (c : TestCase) : Casing σ (Option Verdict) := do
  match ← ExceptT.lift (attemptSteps e b c).run with
  | .ok _ => return none
  | .error f => return some (← failure b c f)

/-- Runs a case in a browser. -/
def inBrowser (e : Executor) (b : Browser σ) (c : TestCase) : Casing σ Verdict := do
  match ← inSession b e.settings (failureIn e b c) with
  | some verdict => return verdict
  | none =>
    note (σ := σ) (success c).message
    return success c

/-! ## 5. Without a browser -/

/-- The message on a simulated case. -/
def simulatedMessage : String := "Test case validated without browser automation"

/-- Reads and logs the steps from number `index` on. -/
def readSteps : Nat → List String → Casing σ Unit
  | _, [] => return ()
  | index, text :: rest => do
    match parseStep text with
    | .error f => throw (.escaped (.read f))
    | .ok step =>
      note (σ := σ) ("Step " ++ numeral index ++ ": " ++ text ++ " -> " ++ step.action.name)
      readSteps (index + 1) rest

/-- Runs a case without a browser. -/
def simulate (c : TestCase) : Casing σ Verdict := do
  readSteps 1 c.steps
  note (σ := σ) simulatedMessage
  return { status := .pass, message := simulatedMessage }

/-! ## 6. Results -/

/-- The verdict on a case that is to be run by a strategy. -/
def verdict (e : Executor) (b : Browser σ) (s : Strategy) (c : TestCase) : Casing σ Verdict := do
  if (← getThe (Drive σ)).cancelled then
    note (σ := σ) "Run cancelled before the case started"
    return { status := .fail, message := "Test case cancelled", error := some .cancelled }
  else match s with
    | .browser => inBrowser e b c
    | .simulated => simulate c

/-- The result that a verdict gives, with the times and the log. -/
def resultOf (start finish : Instant) (log : List LogLine) (v : Verdict) : CaseResult :=
  { status := v.status
    message := some v.message
    startedAt := start
    completedAt := finish
    duration := start.millisecondsSince finish
    logs := log.map LogLine.stamped
    error := v.error.map ErrorKind.name
    screenshot := v.screenshot }

end Case

/-- The strategy for a case. -/
def strategyFor (c : TestCase) : Strategy := if needsBrowser c then .browser else .simulated

/-- Runs a case by a strategy. -/
def runCaseBy {σ : Type} (e : Executor) (b : Browser σ) (s : Strategy) (c : TestCase) :
    Casing σ CaseResult := do
  let start := (← getThe (Drive σ)).now
  modify fun d => { d with log := [] }
  note (σ := σ) ("Starting test case " ++ c.id ++ ": " ++ c.title)
  let v ← Case.verdict e b s c
  let d ← getThe (Drive σ)
  return Case.resultOf start d.now d.log v

/-- Runs a case. -/
def runCase {σ : Type} (e : Executor) (b : Browser σ) (c : TestCase) : Casing σ CaseResult :=
  runCaseBy e b (strategyFor c) c

end StepRunner
