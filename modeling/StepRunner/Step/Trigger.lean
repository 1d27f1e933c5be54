import StepRunner.Step.Basic
import StepRunner.Text.Scan

/-!
# Trigger words

The action of a sentence is decided by its trigger words. A `Family` lists the words of one action;
a word counts bare or followed by `s`, `es`, `ed` or `ing`, and only where neither a letter, a digit
nor an underscore touches it. `Family.all` is the order in which the families are tried.
-/

namespace StepRunner.Step

open Text

/-- The trigger words of an action. -/
inductive Family where
  | navigate
  | click
  | type
  | wait
  | assert
  | select
  | scroll
  | hover
  deriving DecidableEq, Repr

namespace Family

/-- The words, in lower case; a space stands for any non-empty run of blanks. -/
def triggers : Family → List String
  | .navigate => ["navigate", "go to", "open", "visit"]
  | .click => ["click", "press", "tap"]
  | .type => ["type", "enter", "input", "fill"]
  | .wait => ["wait", "pause", "delay"]
  | .assert => ["verify", "check", "assert", "should", "expect"]
  | .select => ["select", "choose", "pick"]
  | .scroll => ["scroll", "swipe"]
  | .hover => ["hover", "mouseover"]

/-- The action that the words of a family stand for. -/
def action : Family → Action
  | .navigate => .navigate
  | .click => .click
  | .type => .type
  | .wait => .wait
  | .assert => .assert
  | .select => .select
  | .scroll => .scroll
  | .hover => .hover

/-- The families in the order in which they are tried. -/
def all : List Family := [.navigate, .click, .type, .wait, .assert, .select, .scroll, .hover]

/-- The family of an action's name. -/
def ofName? (name : String) : Option Family := all.find? fun f => f.action.name == name

end Family

/-- The endings with which a trigger word still counts. -/
def inflections : List String := ["s", "es", "ed", "ing", ""]

/-- What follows an ending that completes a word. -/
def afterInflection? (cs : List Char) : Option (List Char) :=
  inflections.findSome? fun ending => (afterLiteral? ending.toList cs).filter atWordEnd

/-- What follows one of the words, bare or inflected, at the start of the text. -/
def afterTrigger? (words : List String) (cs : List Char) : Option (List Char) :=
  words.findSome? fun word => (afterKeyword? word.toList cs).bind afterInflection?

/-- What follows the first trigger word of the text. -/
def afterFirstTrigger? (words : List String) (cs : List Char) : Option (List Char) :=
  search (atWord (afterTrigger? words)) cs

/-- One of the words, bare or inflected, stands in the text. -/
def hasTrigger (words : List String) (cs : List Char) : Bool :=
  (afterFirstTrigger? words cs).isSome

/-- The first family with a trigger word in the text. -/
def Family.find? (cs : List Char) : Option Family :=
  Family.all.find? fun f => hasTrigger f.triggers cs

end StepRunner.Step
