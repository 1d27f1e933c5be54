import StepRunner.Browser.Basic
import StepRunner.Case.Basic
import StepRunner.Locator
import StepRunner.Settings
import StepRunner.Step.Parser
import StepRunner.Url.Reference

/-!
# Carrying out steps

An `Executor` carries out parsed steps on a page. A navigation is tried twice; an interaction looks
for its target with the locators of the phrase, in order, and acts on the first element that shows
up; an assertion holds if the page's text contains the phrase, or else if some locator finds an
element. `Executor.validate` checks the outcome that a case expects.

A step fails with a `StepFault`: an error of the step itself, or one that passed through.
-/

namespace StepRunner

open Text Number

/-! ## 1. Faults -/

/-- Why a step, or a case, could not be carried out. -/
inductive StepFault where
  /-- The step itself failed. -/
  | failed (kind : ErrorKind) (message : String)
  /-- A call of the page failed where nothing deals with it. -/
  | page (fault : CallFault)
  /-- An address cannot be resolved. -/
  | url (fault : Url.Fault)
  /-- A sentence cannot be read. -/
  | read (fault : Step.ReadFault)
  deriving DecidableEq, Repr

/-- The wording of a fault. -/
def StepFault.message : StepFault → String
  | .failed _ m => m
  | .page f => f.message
  | .url f => f.message
  | .read f => f.message

/-- A part of a step: it may fail, and drives the browser in either case. -/
abbrev Stepping (σ : Type) := ExceptT StepFault (Driving σ)

/-- What carries out steps: the settings and the address that relative ones are resolved against. -/
structure Executor where
  settings : Settings := {}
  baseUrl : Option String := none

namespace Executor

/-- An executor with an address of its own, or else that of the settings. -/
def create (settings : Settings) (baseUrl : Option String) : Executor :=
  { settings, baseUrl := baseUrl.orElse fun _ => settings.baseUrl }

/-! ## 2. Addresses -/

/-- The URL that a target stands for. -/
def resolve (e : Executor) (target : String) : Except StepFault String :=
  let cs := trim target.toList
  if (after? "http://".toList cs).isSome || (after? "https://".toList cs).isSome then
    .ok (String.ofList cs)
  else if cs.head? = some '/' then
    match e.baseUrl.filter (· != "") with
    | none =>
      .error (.failed .invalidStep
        ("Relative URL " ++ String.ofList cs ++ " requires a base URL"))
    | some base =>
      let rooted := dropRightWhile (· == '/') base.toList ++ ['/']
      match Url.join rooted (cs.dropWhile (· == '/')) with
      | .ok url => .ok (String.ofList url)
      | .error f => .error (.url f)
  else .ok ("https://" ++ String.ofList cs)

variable {σ : Type}

/-! ## 3. Calls -/

/-- A line for the log. -/
def say (text : String) : Stepping σ Unit := note (σ := σ) text

/-- A call whose refusal is an answer; a crash ends the step. -/
def attempt (b : Browser σ) (c : Call) : Stepping σ (Except String Reply) := do
  match ← ask b c with
  | .ok r => return .ok r
  | .error (.refused m) => return .error m
  | .error f => throw (.page f)

/-- A call that must succeed. -/
def demand (b : Browser σ) (c : Call) : Stepping σ Reply := do
  match ← ask b c with
  | .ok r => return r
  | .error f => throw (.page f)

/-! ## 4. Navigation -/

/-- Goes to the target, a second time if the browser refuses the first. -/
def navigate (e : Executor) (b : Browser σ) (target : Option String) : Stepping σ Unit := do
  let some target := target.filter fun t => !isBlankText t
    | throw (.failed .invalidStep "Navigate step has no URL")
  let url ← e.resolve target
  say ("Navigating to " ++ url)
  match ← attempt b (.goto url .domContentLoaded e.settings.navigationTimeout) with
  | .ok _ =>
    match ← attempt b (.waitForLoadState .load e.settings.readyStateTimeout) with
    | .ok _ => pure ()
    | .error _ => say "Page did not reach load state, continuing"
  | .error first =>
    say ("Navigation failed (" ++ first ++ "), retrying with load state")
    match ← attempt b (.goto url .load e.settings.navigationRetryTimeout) with
    | .ok _ => pure ()
    | .error m =>
      throw (.failed .navigationFailed ("Failed to navigate to " ++ url ++ ": " ++ m))
  say ("Navigated to " ++ url)

/-! ## 5. Interactions -/

/-- The first of the locators whose element reaches the state. -/
def firstReaching (b : Browser σ) (state : ElementState) (timeout : Int) :
    List String → Stepping σ (Option String)
  | [] => return none
  | candidate :: rest => do
    let _ ← demand b (.locator candidate)
    match ← attempt b (.waitFor candidate state timeout) with
    | .ok _ => return some candidate
    | .error _ => firstReaching b state timeout rest

/-- The locator of the visible element that a step acts on. -/
def requireTarget (e : Executor) (b : Browser σ) (action : Action) (target : Option String) :
    Stepping σ String := do
  let some target := target.filter (· != "")
    | throw (.failed .invalidStep (action.name ++ " step has no target"))
  match ← firstReaching b .visible e.settings.interactionTimeout (locators target) with
  | none => throw (.failed .targetNotFound ("Could not find element: " ++ target))
  | some candidate =>
    say ("Found element for '" ++ target ++ "' using " ++ candidate)
    return candidate

/-- The calls in order, up to the first that is refused. -/
def allOf (b : Browser σ) : List Call → Stepping σ (Except String Unit)
  | [] => return .ok ()
  | c :: rest => do
    match ← attempt b c with
    | .ok _ => allOf b rest
    | .error m => return .error m

/-- Finds the target and makes the calls of an interaction on it. -/
def interact (e : Executor) (b : Browser σ) (action : Action) (target : Option String)
    (calls : String → List Call) : Stepping σ Unit := do
  let candidate ← e.requireTarget b action target
  match ← allOf b (calls candidate) with
  | .ok _ => pure ()
  | .error m =>
    throw (.failed .interactionFailed (action.name ++ " on " ++ candidate ++ " failed: " ++ m))

/-- The value of a step that needs one. -/
def requireValue (name : String) : Option String → Stepping σ String
  | some v => return v
  | none => throw (.failed .invalidStep (name ++ " step has no value"))

/-- Clicks, and lets the page settle. -/
def click (e : Executor) (b : Browser σ) (target : Option String) : Stepping σ Unit := do
  e.interact b .click target fun c =>
    [.click c e.settings.interactionTimeout, .waitForTimeout e.settings.clickSettle]
  say ("Clicked " ++ target.getD "")

/-- Empties a field and types into it. -/
def typeText (e : Executor) (b : Browser σ) (target value : Option String) : Stepping σ Unit := do
  let v ← requireValue "Type" value
  let t := e.settings.interactionTimeout
  e.interact b .type target fun c => [.focus c t, .fill c "" t, .pressSequentially c v t]
  say ("Typed '" ++ v ++ "' into " ++ target.getD "")

/-- Chooses an option of a list. -/
def select (e : Executor) (b : Browser σ) (target value : Option String) : Stepping σ Unit := do
  let v ← requireValue "Select" value
  e.interact b .select target fun c => [.selectOption c v e.settings.interactionTimeout]
  say ("Selected '" ++ v ++ "' in " ++ target.getD "")

/-- Points at an element. -/
def hover (e : Executor) (b : Browser σ) (target : Option String) : Stepping σ Unit := do
  e.interact b .hover target fun c => [.hover c e.settings.interactionTimeout]
  say ("Hovered " ++ target.getD "")

/-- Waits. -/
def wait (b : Browser σ) (time : Option Int) : Stepping σ Unit := do
  let time := time.getD 0
  say ("Waiting " ++ numeral time ++ "ms")
  let _ ← demand b (.waitForTimeout time)

/-- The script that scrolls in a direction. -/
def scrollScript? : String → Option String
  | "top" => some "window.scrollTo(0, 0)"
  | "bottom" => some "window.scrollTo(0, document.body.scrollHeight)"
  | "up" => some "window.scrollBy(0, -window.innerHeight)"
  | "down" => some "window.scrollBy(0, window.innerHeight)"
  | _ => none

/-- Scrolls; down if the target is no direction. -/
def scroll (b : Browser σ) (target : Option String) : Stepping σ Unit := do
  let (direction, script) := match target.bind fun t => (scrollScript? t).map (t, ·) with
    | some found => found
    | none => ("down", "window.scrollBy(0, window.innerHeight)")
  match ← attempt b (.evaluate script) with
  | .ok _ => pure ()
  | .error m =>
    throw (.failed .interactionFailed ("Scroll " ++ direction ++ " failed: " ++ m))
  say ("Scrolled " ++ direction)

/-! ## 6. Assertions -/

/-- A text of the page; empty where the browser refuses to read it. -/
def pageText (b : Browser σ) (c : Call) : Stepping σ String := do
  match ← attempt b c with
  | .ok r => return r.textOrEmpty
  | .error _ => return ""

/-- The text contains another, without regard to case. -/
def mentions (text needle : String) : Bool := contains (lower needle.toList) (lower text.toList)

/-- Holds if the page's text contains the target, or else if a locator finds an element. -/
def check (e : Executor) (b : Browser σ) (target : Option String) : Stepping σ Unit := do
  let some target := target.filter (· != "")
    | throw (.failed .invalidStep "Assert step has no target")
  let inner ← pageText b .innerText
  let content ← pageText b .textContent
  if mentions inner target then
    say ("Assertion passed: '" ++ target ++ "' found in page text")
  else if mentions content target then
    say ("Assertion passed: '" ++ target ++ "' found in page content")
  else
    match ← firstReaching b .attached e.settings.assertionTimeout (locators target) with
    | some candidate => say ("Assertion passed: element found using " ++ candidate)
    | none =>
      throw (.failed .assertionFailed ("Assertion failed: '" ++ target ++ "' not found on page"))

/-- Carries out a step. -/
def execute (e : Executor) (b : Browser σ) (step : ParsedStep) : Stepping σ Unit :=
  match step.action with
  | .navigate => e.navigate b step.target
  | .click => e.click b step.target
  | .type => e.typeText b step.target step.value
  | .select => e.select b step.target step.value
  | .hover => e.hover b step.target
  | .wait => wait b step.timeout
  | .scroll => scroll b step.target
  | .assert => e.check b step.target
  | .other name => throw (.failed .invalidStep ("Unsupported action: " ++ name))

/-! ## 7. The expected outcome -/

/-- The length of the part of the page's text that a message quotes. -/
def excerptLength : Nat := 500

/-- The expectation may be an address. -/
def looksLikeAddress (needle : List Char) : Bool :=
  contains "://".toList needle || needle.head? == some '/'

/-- Checks the expected outcome, if there is one, against the page's text and address. -/
def validate (b : Browser σ) (expected : String) : Stepping σ Unit := do
  if isBlankText expected then return
  let expected := strip expected
  let inner ← pageText b .innerText
  let content ← pageText b .textContent
  if mentions inner expected then
    say "Expected result found in page text"
  else if mentions content expected then
    say "Expected result found in page content"
  else
    if looksLikeAddress (lower expected.toList) then
      let url ← pageText b .url
      if mentions url expected then
        say ("Expected result matched current URL " ++ url)
        return
    let shown := if inner = "" then content else inner
    throw (.failed .assertionFailed
      ("Expected result not found: '" ++ expected ++ "'. Page text: "
        ++ String.ofList (shown.toList.take excerptLength)))

end Executor

end StepRunner
