import StepRunner.Instant
import StepRunner.Journal

/-!
# What a browser is asked and what it answers

A browser is anything that answers calls: `Browser σ` has a state `σ` and a function from a call to
a `Response`. A response tells how much time passed, which lines the page wrote to its console,
whether the run was cancelled meanwhile, and the outcome: a reply, a refusal by the browser, or a
crash.

Code that drives a browser is written in `Driving`: it keeps the clock, every call in order, the log
lines with their moments, and the journal. `ask` is the only way to the browser, `note` the only way
to the log, and `report` the only way to the journal.
-/

namespace StepRunner

/-! ## 1. Calls -/

/-- What an element is waited for to be. -/
inductive ElementState where
  | visible
  | attached
  deriving DecidableEq, Repr

/-- When a page counts as loaded. -/
inductive LoadState where
  | domContentLoaded
  | load
  deriving DecidableEq, Repr

/-- What is closed at the end of a session. -/
inductive Resource where
  | context
  | browser
  deriving DecidableEq, Repr

/-- A call. Times are milliseconds. -/
inductive Call where
  | start
  | launch (headless : Bool)
  | newContext (width height : Int)
  | newPage
  | close (resource : Resource)
  | stop
  | locator (selector : String)
  | waitFor (selector : String) (state : ElementState) (timeout : Int)
  | click (selector : String) (timeout : Int)
  | focus (selector : String) (timeout : Int)
  | hover (selector : String) (timeout : Int)
  | fill (selector value : String) (timeout : Int)
  | pressSequentially (selector value : String) (timeout : Int)
  | selectOption (selector value : String) (timeout : Int)
  | goto (url : String) (ready : LoadState) (timeout : Int)
  | waitForLoadState (state : LoadState) (timeout : Int)
  | waitForTimeout (time : Int)
  | innerText
  | textContent
  | evaluate (script : String)
  | screenshot
  | url
  deriving DecidableEq, Repr

/-! ## 2. Responses -/

/-- Why a call did not succeed: the browser refused it, or something broke. -/
inductive CallFault where
  | refused (message : String)
  | crashed (message : String)
  deriving DecidableEq, Repr

/-- The wording of a fault. -/
def CallFault.message : CallFault → String
  | .refused m => m
  | .crashed m => m

/-- What a call that succeeds gives. -/
inductive Reply where
  | done
  | text (content : Option String)
  | image (bytes : List UInt8)
  deriving DecidableEq, Repr

/-- The text of a reply; empty where there is none. -/
def Reply.textOrEmpty : Reply → String
  | .text (some s) => s
  | _ => ""

/-- The bytes of a reply. -/
def Reply.bytes : Reply → List UInt8
  | .image b => b
  | _ => []

/-- A line that the page reports to whoever listens. -/
inductive PageLine where
  | console (kind text : String)
  | pageError (text : String)
  deriving DecidableEq, Repr

/-- The line as it is logged. -/
def PageLine.text : PageLine → String
  | .console kind text => "Console " ++ kind ++ ": " ++ text
  | .pageError text => "Page error: " ++ text

/-- The answer to a call. -/
structure Response where
  /-- Microseconds until the answer. -/
  elapsed : Nat := 0
  lines : List PageLine := []
  /-- The run was cancelled during the call. -/
  cancels : Bool := false
  outcome : Except CallFault Reply := .ok .done

/-- A browser with states `σ`. -/
structure Browser (σ : Type) where
  respond : σ → Call → Response × σ

/-! ## 3. Driving a browser -/

/-- A line of a log and its moment. -/
structure LogLine where
  moment : Instant
  text : String
  deriving DecidableEq, Repr

/-- The line as a case keeps it. -/
def LogLine.stamped (l : LogLine) : String := "[" ++ l.moment.iso ++ "Z] " ++ l.text

/-- What someone who drives a browser keeps. -/
structure Drive (σ : Type) where
  browser : σ
  now : Instant
  /-- The calls so far, in order. -/
  trace : List Call := []
  /-- The log so far, in order. -/
  log : List LogLine := []
  /-- The journal so far, in order. -/
  journal : List JournalLine := []
  /-- The run was cancelled. -/
  cancelled : Bool := false
  /-- The lines of the page go to the log. -/
  listening : Bool := false

/-- A computation that drives a browser. -/
abbrev Driving (σ : Type) := StateM (Drive σ)

variable {σ : Type}

/-- What a response changes. -/
def Drive.after (d : Drive σ) (c : Call) (r : Response) (s : σ) : Drive σ :=
  let now := d.now.later r.elapsed
  { d with
    browser := s
    now := now
    trace := d.trace ++ [c]
    log := if d.listening then d.log ++ r.lines.map fun l => ⟨now, l.text⟩ else d.log
    cancelled := d.cancelled || r.cancels }

/-- Makes a call. -/
def ask (b : Browser σ) (c : Call) : Driving σ (Except CallFault Reply) := fun d =>
  let (r, s) := b.respond d.browser c
  (r.outcome, d.after c r s)

/-- Adds a line to the log. -/
def note (text : String) : Driving σ Unit := fun d =>
  ((), { d with log := d.log ++ [⟨d.now, text⟩] })

/-- Adds an error to the journal. -/
def report (text : String) : Driving σ Unit := fun d =>
  ((), { d with journal := d.journal ++ [⟨.error, text⟩] })

end StepRunner
