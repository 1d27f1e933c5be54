import StepRunner.Step.Address
import StepRunner.Step.Amount
import StepRunner.Step.Phrase
import StepRunner.Step.Selector

/-!
# Reading a step

`parseStep` reads a sentence as a `ParsedStep`. The first family with a trigger word in the
lower-case sentence gives the action, and each family has its own way to find the target and the
value. A sentence without trigger words is a click on its quotation, or on the whole of it.
-/

namespace StepRunner

open Step Text

namespace Step

/-- The target of a click or a hover: a selector, a quotation, or the words after the trigger. -/
def pointedTarget? (f : Family) (cs : List Char) : Option (List Char) :=
  (selector? cs).orElse fun _ => (quotedText? cs).orElse fun _ => objectPhrase? cs f.triggers

/-- The target of an assertion: a quotation first. -/
def assertedTarget? (cs : List Char) : Option (List Char) :=
  (quotedText? cs).orElse fun _ => (selector? cs).orElse fun _ =>
    objectPhrase? cs Family.assert.triggers

/-- A sentence of a family as a step. -/
def parseAs (f : Family) (cs : List Char) : Except ReadFault ParsedStep :=
  let step : ParsedStep := { action := f.action, sentence := String.ofList cs }
  match f with
  | .navigate =>
    .ok { step with target := ((address? cs).orElse fun _ => quotedText? cs).map String.ofList }
  | .click | .hover => .ok { step with target := (pointedTarget? f cs).map String.ofList }
  | .type =>
    let remainder := without cs (value? cs)
    .ok { step with
      target := some (((selector? remainder).map String.ofList).getD (inputField remainder))
      value := (value? cs).map String.ofList }
  | .select =>
    let remainder := without cs (value? cs)
    .ok { step with
      target := some (String.ofList ((selector? remainder).getD (dropdownField remainder)))
      value := (value? cs).map String.ofList }
  | .wait => (amount? cs).map fun t => { step with timeout := some (t.getD defaultWait) }
  | .assert => .ok { step with target := (assertedTarget? cs).map String.ofList }
  | .scroll => .ok { step with target := some (scrollTarget cs) }

/-- A sentence without trigger words as a step. -/
def fallback (cs : List Char) : ParsedStep :=
  { action := .click
    sentence := String.ofList cs
    target := some (String.ofList ((quotedText? cs).getD cs)) }

/-- A sentence without blanks at its ends as a step. -/
def parseTrimmed (cs : List Char) : Except ReadFault ParsedStep :=
  match Family.find? (lower cs) with
  | some f => parseAs f cs
  | none => .ok (fallback cs)

end Step

/-- The sentence as a step. -/
def parseStep (text : String) : Except ReadFault ParsedStep := parseTrimmed (trim text.toList)

/-- The instruction as a step; no instruction is an empty sentence. -/
def parseInstruction (instruction : Option String) : Except ReadFault ParsedStep :=
  parseStep (instruction.getD "")

end StepRunner
