import StepRunner.Number.Binary64
import StepRunner.Step.Quotation

/-!
# Amounts of time

`amount?` finds the first amount of time in a sentence: digits of any script, a fraction, and a unit
that ends a word. The number is read as binary64; milliseconds keep its integer part, any other unit
counts as seconds and keeps the integer part of a thousand times it. `wait` takes `defaultWait`
milliseconds where the sentence names no amount.
-/

namespace StepRunner.Step

open Text Number

/-- Milliseconds to wait where a sentence names no amount. -/
def defaultWait : Int := 3000

/-- Why a sentence cannot be read. -/
inductive ReadFault where
  /-- An amount of time beyond the binary64 format. -/
  | amountTooLarge
  deriving DecidableEq, Repr

/-- The wording of a fault. -/
def ReadFault.message : ReadFault → String
  | .amountTooLarge => "cannot convert float infinity to integer"

/-- The units, in the order in which they are tried. -/
def units : List String :=
  ["milliseconds", "millisecond", "ms", "seconds", "second", "secs", "sec", "s"]

/-- An amount as it is written: digits before and after the point, and the unit. -/
structure WrittenAmount where
  whole : List Char
  fraction : List Char
  unit : List Char
  deriving DecidableEq, Repr

/-- The unit at the start of the text, after blanks. -/
def unitHere? (cs : List Char) : Option (List Char) :=
  let rest := trimLeft cs
  (afterWordOf? units rest).map (readUpTo rest)

/-- The digits of a fraction, if a point and a digit stand here, and the rest. -/
def fractionHere : List Char → List Char × List Char
  | '.' :: rest =>
    if (rest.takeWhile isDigit).isEmpty then ([], '.' :: rest)
    else (rest.takeWhile isDigit, rest.dropWhile isDigit)
  | cs => ([], cs)

/-- The amount that starts here. -/
def amountHere? (cs : List Char) : Option WrittenAmount :=
  let whole := cs.takeWhile isDigit
  if whole.isEmpty then none
  else
    let (fraction, rest) := fractionHere (cs.dropWhile isDigit)
    (unitHere? rest).map fun unit => ⟨whole, fraction, unit⟩

/-- The values of digits of any script. -/
def digitValues (cs : List Char) : List Nat := cs.filterMap digitValue?

/-- The number of an amount, as binary64. -/
def WrittenAmount.number (a : WrittenAmount) : Binary64 :=
  let digits := digitValues (a.whole ++ a.fraction)
  Binary64.ofDecimal false (ofDigits digits) digits.length (-a.fraction.length)

/-- The unit is the millisecond. -/
def WrittenAmount.inMilliseconds (a : WrittenAmount) : Bool :=
  let unit := lower a.unit
  (after? "ms".toList unit).isSome || (after? "milli".toList unit).isSome

/-- The whole milliseconds of an amount. -/
def WrittenAmount.milliseconds (a : WrittenAmount) : Except ReadFault Int :=
  let amount := if a.inMilliseconds then a.number else a.number.mul (Binary64.ofInt 1000)
  match amount.truncate? with
  | some n => .ok n
  | none => .error .amountTooLarge

/-- The first amount of time of the text, in milliseconds. -/
def amount? (cs : List Char) : Except ReadFault (Option Int) :=
  match search (fun _ => amountHere?) cs with
  | none => .ok none
  | some a => a.milliseconds.map some

end StepRunner.Step
