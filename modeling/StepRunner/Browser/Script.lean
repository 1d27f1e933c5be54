import StepRunner.Browser.Basic
import StepRunner.Number.Decimal

/-!
# Scripted browsers

A browser that follows a script: which elements its page has and what goes wrong with them, what the
page's texts and address are and how they change, the outcomes of navigations and the like one call
after the other, and at which stage a session fails to open. `Script.browser` is the browser of a
script and `Script.start` its state before the first session.

Every call takes the script's tick; a wait that fails, and a navigation that times out, takes the
call's own time on top, and a plain wait its length. No single stretch of time is longer than a day.
-/

namespace StepRunner

open Number

/-- What reading a text of the page gives. -/
inductive Reading where
  | text (content : Option String)
  | refused (message : String)
  | crashed (message : String)
  deriving DecidableEq, Repr, Inhabited

/-- The outcome of reading. -/
def Reading.outcome : Reading → Except CallFault Reply
  | .text t => .ok (.text t)
  | .refused m => .error (.refused m)
  | .crashed m => .error (.crashed m)

/-- An element of a scripted page. -/
structure Element where
  visible : Bool := true
  /-- Waiting for it crashes. -/
  crash : Bool := false
  /-- The actions that the browser refuses. -/
  failOn : List String := []
  /-- The actions that crash. -/
  crashOn : List String := []
  deriving DecidableEq, Repr, Inhabited

/-- What changes on a page after a navigation or an action. -/
structure PageUpdate where
  url : Option Reading := none
  innerText : Option Reading := none
  textContent : Option Reading := none
  elements : Option (List (String × Element)) := none
  lines : List PageLine := []
  deriving DecidableEq, Repr, Inhabited

/-- The outcome of a call that goes by turns. -/
inductive Turn where
  | ok
  | timeout
  | error
  | crash
  deriving DecidableEq, Repr, Inhabited

/-- The outcomes still to come; a list that is used up goes on with success. -/
structure Turns where
  goto : List Turn := []
  loadState : List Turn := []
  evaluate : List Turn := []
  screenshot : List Turn := []
  deriving DecidableEq, Repr, Inhabited

/-- What a page shows. -/
structure PageState where
  url : Reading := .text (some "about:blank")
  innerText : Reading := .text (some "")
  textContent : Reading := .text (some "")
  elements : List (String × Element) := []
  turns : Turns := {}
  deriving DecidableEq, Repr, Inhabited

/-- The stages at which a session may fail to open. -/
inductive Stage where
  | start
  | launch
  | context
  | page
  deriving DecidableEq, Repr, Inhabited

/-- The name of a stage. -/
def Stage.name : Stage → String
  | .start => "start"
  | .launch => "launch"
  | .context => "context"
  | .page => "page"

/-- A stage that fails, by a refusal or a crash. -/
structure StageFault where
  stage : Stage
  crashes : Bool
  deriving DecidableEq, Repr, Inhabited

/-- A script. -/
structure Script where
  page : PageState := {}
  /-- What changes after a navigation to an address. -/
  routes : List (String × PageUpdate) := []
  /-- What changes after an action on a selector. -/
  onAction : List ((String × String) × PageUpdate) := []
  image : List UInt8 := []
  /-- Microseconds of a call. -/
  tick : Int := 1000
  /-- The number of calls after which the run is cancelled. -/
  cancelAfter : Option Int := none
  failStage : Option StageFault := none
  /-- The stage that fails by session, counted from zero. -/
  failSessions : List (Nat × StageFault) := []
  failClose : List Resource := []
  deriving Inhabited

/-- The state of a scripted browser. -/
structure ScriptState where
  page : PageState
  /-- The calls so far. -/
  calls : Nat := 0
  /-- The sessions opened so far. -/
  sessions : Nat := 0
  deriving DecidableEq, Repr, Inhabited

namespace Script

/-! ## 1. Time -/

/-- The longest stretch of time, in microseconds. -/
def longest : Nat := 86400000000

/-- A stretch of time in microseconds. -/
def stretch (micros : Int) : Nat := min micros.toNat longest

/-- A stretch of time given in milliseconds. -/
def stretchOf (milliseconds : Int) : Nat := stretch (milliseconds * 1000)

/-! ## 2. What a call does to the page -/

/-- What a call does: the time on top of the tick, the lines of the page, the outcome, the page. -/
structure Effect where
  extra : Nat := 0
  lines : List PageLine := []
  outcome : Except CallFault Reply := .ok .done
  page : PageState

/-- A call that is refused. -/
def refuse (p : PageState) (message : String) (extra : Nat := 0) : Effect :=
  { extra, outcome := .error (.refused message), page := p }

/-- A call that crashes. -/
def crash (p : PageState) (message : String) : Effect :=
  { outcome := .error (.crashed message), page := p }

/-- A page after an update. Setting the inner text sets both texts. -/
def changed (p : PageState) (u : PageUpdate) : PageState :=
  let content := (u.textContent.orElse fun _ => u.innerText).getD p.textContent
  { p with
    url := u.url.getD p.url
    innerText := u.innerText.getD p.innerText
    textContent := content
    elements := u.elements.getD p.elements }

/-- A call that succeeds, with the update that belongs to it. -/
def succeed (p : PageState) (u : Option PageUpdate) : Effect :=
  { page := (u.map (changed p)).getD p, lines := (u.map (·.lines)).getD [] }

/-- The text of a time limit. -/
def limitText (timeout : Int) : String := "Timeout " ++ numeral timeout ++ "ms "

/-- Waiting for an element. -/
def waitEffect (p : PageState) (selector : String) (state : ElementState) (timeout : Int) :
    Effect :=
  let missed := refuse p (limitText timeout ++ "waiting for " ++ selector) (stretchOf timeout)
  match p.elements.lookup selector with
  | none => missed
  | some e =>
    if e.crash then crash p ("wait crashed on " ++ selector)
    else if state = .visible ∧ !e.visible then missed
    else { page := p }

/-- Acting on an element. -/
def actEffect (sc : Script) (p : PageState) (action selector : String) : Effect :=
  let e := (p.elements.lookup selector).getD {}
  if e.failOn.contains action then refuse p (action ++ " failed on " ++ selector)
  else if e.crashOn.contains action then crash p (action ++ " crashed on " ++ selector)
  else succeed p (sc.onAction.lookup (action, selector))

/-- The next outcome, and those after it. -/
def nextTurn : List Turn → Turn × List Turn
  | [] => (.ok, [])
  | t :: rest => (t, rest)

/-- The effect of a call that goes by turns: what `key` names fails by its turn, a time-out with its
    own words and extra time. -/
def turnEffect (p : PageState) (turn : Turn) (key late : String) (extra : Nat) (good : Effect) :
    Effect :=
  match turn with
  | .ok => good
  | .timeout => refuse p late extra
  | .error => refuse p (key ++ " error")
  | .crash => crash p (key ++ " crash")

/-- The effect of a call on the page of a session. -/
def pageEffect (sc : Script) (p : PageState) : Call → Effect
  | .locator _ => { page := p }
  | .waitFor s state t => waitEffect p s state t
  | .click s _ => actEffect sc p "click" s
  | .focus s _ => actEffect sc p "focus" s
  | .hover s _ => actEffect sc p "hover" s
  | .fill s _ _ => actEffect sc p "fill" s
  | .pressSequentially s _ _ => actEffect sc p "press_sequentially" s
  | .selectOption s _ _ => actEffect sc p "select_option" s
  | .goto url _ t =>
    let (turn, rest) := nextTurn p.turns.goto
    let p := { p with turns := { p.turns with goto := rest } }
    turnEffect p turn "goto" (limitText t ++ "navigating to " ++ url) (stretchOf t)
      (succeed { p with url := .text (some url) } (sc.routes.lookup url))
  | .waitForLoadState state t =>
    let (turn, rest) := nextTurn p.turns.loadState
    let p := { p with turns := { p.turns with loadState := rest } }
    let name := match state with
      | .load => "load"
      | .domContentLoaded => "domcontentloaded"
    turnEffect p turn "loadState" (limitText t ++ "waiting for " ++ name) (stretchOf t) { page := p }
  | .waitForTimeout t => { extra := stretchOf t, page := p }
  | .innerText => { outcome := p.innerText.outcome, page := p }
  | .textContent => { outcome := p.textContent.outcome, page := p }
  | .url => { outcome := p.url.outcome, page := p }
  | .evaluate _ =>
    let (turn, rest) := nextTurn p.turns.evaluate
    let p := { p with turns := { p.turns with evaluate := rest } }
    turnEffect p turn "evaluate" "evaluate timeout" 0 { page := p }
  | .screenshot =>
    let (turn, rest) := nextTurn p.turns.screenshot
    let p := { p with turns := { p.turns with screenshot := rest } }
    turnEffect p turn "screenshot" "screenshot timeout" 0
      { outcome := .ok (.image sc.image), page := p }
  | _ => { page := p }

/-! ## 3. Sessions -/

/-- The stage of a session that a call belongs to. -/
def stageOf? : Call → Option Stage
  | .start => some .start
  | .launch _ => some .launch
  | .newContext _ _ => some .context
  | .newPage => some .page
  | _ => none

/-- The stage at which the latest of `sessions` sessions fails. -/
def failing? (sc : Script) (sessions : Nat) : Option StageFault :=
  (sc.failSessions.lookup (sessions - 1)).orElse fun _ => sc.failStage

/-- The outcome of opening or closing a part of the latest of `sessions` sessions. -/
def sessionOutcome (sc : Script) (sessions : Nat) (c : Call) : Except CallFault Reply :=
  match stageOf? c, sc.failing? sessions with
  | some stage, some fault =>
    if fault.stage ≠ stage then .ok .done
    else if fault.crashes then .error (.crashed (stage.name ++ " crashed"))
    else .error (.refused (stage.name ++ " failed"))
  | _, _ =>
    match c with
    | .close r => if sc.failClose.contains r then .error (.refused "close failed") else .ok .done
    | _ => .ok .done

/-- A call that opens or closes a part of a session. -/
def isSessionCall : Call → Bool
  | .start | .launch _ | .newContext _ _ | .newPage | .close _ | .stop => true
  | _ => false

/-- The state before the first session. -/
def start (sc : Script) : ScriptState := { page := sc.page }

/-- The answer to a call. A session starts with the page of the script. -/
def respond (sc : Script) (s : ScriptState) (c : Call) : Response × ScriptState :=
  let calls := s.calls + 1
  let tick := stretch sc.tick
  let cancels := sc.cancelAfter == some (calls : Int)
  if isSessionCall c then
    let sessions := if c = .start then s.sessions + 1 else s.sessions
    let page := if c = .start then sc.page else s.page
    ({ elapsed := tick, cancels, outcome := sc.sessionOutcome sessions c },
      { page, calls, sessions })
  else
    let effect := sc.pageEffect s.page c
    ({ elapsed := tick + effect.extra, lines := effect.lines, cancels, outcome := effect.outcome },
      { s with page := effect.page, calls })

/-- The browser that follows a script. -/
def browser (sc : Script) : Browser ScriptState := ⟨sc.respond⟩

end Script

end StepRunner
