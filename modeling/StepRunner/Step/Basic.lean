import StepRunner.Text.Basic

/-!
# Steps

A step of a test case is a sentence. `ParsedStep` is what it asks for: an `Action`, the thing acted
on, the value that is entered or chosen, and for a wait the time in milliseconds.
-/

namespace StepRunner

/-- What a step asks for. `other` is an action that no executor knows. -/
inductive Action where
  | navigate
  | click
  | type
  | select
  | scroll
  | hover
  | wait
  | assert
  | other (name : String)
  deriving DecidableEq, Repr, Inhabited

namespace Action

/-- The name of an action. -/
def name : Action → String
  | .navigate => "navigate"
  | .click => "click"
  | .type => "type"
  | .select => "select"
  | .scroll => "scroll"
  | .hover => "hover"
  | .wait => "wait"
  | .assert => "assert"
  | .other name => name

/-- The actions that an executor knows. -/
def known : List Action := [.navigate, .click, .type, .select, .scroll, .hover, .wait, .assert]

/-- The action of a name. -/
def ofName (name : String) : Action :=
  (known.find? fun a => a.name == name).getD (.other name)

end Action

/-- A step in typed form. -/
structure ParsedStep where
  action : Action
  /-- The sentence, without blanks at its ends. -/
  sentence : String
  target : Option String := none
  value : Option String := none
  /-- Milliseconds. -/
  timeout : Option Int := none
  deriving DecidableEq, Repr, Inhabited

end StepRunner
