import StepRunner.Number.Shortest

/-!
# Instants

A moment is counted in whole microseconds from the start of the year 1 of the proleptic Gregorian
calendar. `Instant.date` is its calendar date and time, `Instant.iso` the text of it in snapshots and
log lines, `Instant.ofIso?` reads that text, and `Instant.secondsSince` and
`Instant.millisecondsSince` are the times between two moments in binary64 seconds and in
milliseconds.
-/

namespace StepRunner

open Number Text

/-- A moment, in microseconds from the start of the year 1. -/
structure Instant where
  micros : Nat
  deriving DecidableEq, Repr, Inhabited

/-- A date and time of day. -/
structure Date where
  year : Nat
  month : Nat
  day : Nat
  hour : Nat
  minute : Nat
  second : Nat
  micro : Nat
  deriving DecidableEq, Repr, Inhabited

namespace Date

/-! ## 1. The calendar -/

/-- Every fourth year is a leap year, of the centuries every fourth one. -/
def isLeap (year : Nat) : Bool := year % 4 == 0 && (year % 100 != 0 || year % 400 == 0)

/-- The length of a month. -/
def monthLength (year month : Nat) : Nat :=
  if month = 2 then (if isLeap year then 29 else 28)
  else if month = 4 ∨ month = 6 ∨ month = 9 ∨ month = 11 then 30
  else 31

/-- The days from the start of the year 1 to the start of a year. -/
def daysBeforeYear (year : Nat) : Nat :=
  let past := year - 1
  past * 365 + past / 4 - past / 100 + past / 400

/-- The days of a year before a month. -/
def daysBeforeMonth (year month : Nat) : Nat :=
  (List.range (month - 1)).foldl (fun days m => days + monthLength year (m + 1)) 0

/-- The year of a day, counted from the start of the year 1. -/
def yearOfDay (day : Nat) : Nat :=
  let guess := day / 366 + 1
  let later := (List.range 30).filter fun k => daysBeforeYear (guess + k) ≤ day
  guess + (later.getLast?.getD 0)

/-- The month of a day of a year, from the given month on. -/
def monthOfDay (year : Nat) : Nat → Nat → Nat → Nat × Nat
  | 0, month, day => (month, day)
  | fuel + 1, month, day =>
    if day < monthLength year month then (month, day)
    else monthOfDay year fuel (month + 1) (day - monthLength year month)

/-- A date that the calendar has. -/
def isValid (d : Date) : Bool :=
  1 ≤ d.year && d.year ≤ 9999 && 1 ≤ d.month && d.month ≤ 12 && 1 ≤ d.day
    && d.day ≤ monthLength d.year d.month && d.hour < 24 && d.minute < 60 && d.second < 60
    && d.micro < 1000000

/-! ## 2. Texts -/

/-- The date with dashes. -/
def dayText (d : Date) : List Char :=
  padded 4 d.year ++ '-' :: padded 2 d.month ++ '-' :: padded 2 d.day

/-- The time of day with colons. -/
def timeText (d : Date) : List Char :=
  padded 2 d.hour ++ ':' :: padded 2 d.minute ++ ':' :: padded 2 d.second

/-- Date and time with `T` between them; microseconds only where there are any. -/
def iso (d : Date) : List Char :=
  d.dayText ++ 'T' :: d.timeText ++ if d.micro = 0 then [] else '.' :: padded 6 d.micro

/-- Date and time to the second with a space between them, as reports show it. -/
def reportText (d : Date) : List Char :=
  decimal d.year ++ '-' :: padded 2 d.month ++ '-' :: padded 2 d.day ++ ' ' :: d.timeText

/-- Date and time to the second without marks, as run ids start. -/
def stamp (d : Date) : List Char :=
  decimal d.year ++ padded 2 d.month ++ padded 2 d.day ++ 'T' :: padded 2 d.hour
    ++ padded 2 d.minute ++ padded 2 d.second ++ ['Z']

end Date

namespace Instant

/-! ## 3. Moments and dates -/

/-- Microseconds of a day. -/
def dayLength : Nat := 86400000000

/-- The moment of a date. -/
def ofDate (d : Date) : Instant :=
  let days := Date.daysBeforeYear d.year + Date.daysBeforeMonth d.year d.month + (d.day - 1)
  ⟨days * dayLength + ((d.hour * 60 + d.minute) * 60 + d.second) * 1000000 + d.micro⟩

/-- The date of a moment. -/
def date (t : Instant) : Date :=
  let days := t.micros / dayLength
  let rest := t.micros % dayLength
  let year := Date.yearOfDay days
  let (month, day) := Date.monthOfDay year 12 1 (days - Date.daysBeforeYear year)
  { year, month, day := day + 1
    hour := rest / 3600000000
    minute := rest / 60000000 % 60
    second := rest / 1000000 % 60
    micro := rest % 1000000 }

/-- The text of a moment. -/
def iso (t : Instant) : String := String.ofList t.date.iso

/-- The moment some microseconds later. -/
def later (t : Instant) (micros : Nat) : Instant := ⟨t.micros + micros⟩

/-! ## 4. Reading -/

/-- A number of exactly `width` ASCII digits, and the rest. -/
def digits? (width : Nat) (cs : List Char) : Option (Nat × List Char) :=
  let ds := cs.take width
  if ds.length = width ∧ ds.all isAsciiDigit then
    some (ofDigits (ds.map fun c => c.toNat - 48), cs.drop width)
  else none

/-- What follows a mark. -/
def mark? (c : Char) : List Char → Option (List Char)
  | d :: rest => if c = d then some rest else none
  | [] => none

/-- The moment of a text `YYYY-MM-DDTHH:MM:SS`, with six more digits after a point or without. -/
def ofIso? (text : String) : Option Instant := do
  let (year, rest) ← digits? 4 text.toList
  let (month, rest) ← digits? 2 (← mark? '-' rest)
  let (day, rest) ← digits? 2 (← mark? '-' rest)
  let (hour, rest) ← digits? 2 (← mark? 'T' rest)
  let (minute, rest) ← digits? 2 (← mark? ':' rest)
  let (second, rest) ← digits? 2 (← mark? ':' rest)
  let micro ← match rest with
    | [] => some 0
    | '.' :: more => match digits? 6 more with
      | some (n, []) => some n
      | _ => none
    | _ => none
  let d : Date := { year, month, day, hour, minute, second, micro }
  if d.isValid then some (ofDate d) else none

/-! ## 5. Times between moments -/

/-- Microseconds from one moment to another. -/
def microsSince (start finish : Instant) : Int := (finish.micros : Int) - (start.micros : Int)

/-- Seconds from one moment to another, in binary64. -/
def secondsSince (start finish : Instant) : Binary64 :=
  let d := microsSince start finish
  Binary64.ofRatio (d < 0) d.natAbs 1000000

/-- Milliseconds from one moment to another: the integer part of a thousand times the seconds. -/
def millisecondsSince (start finish : Instant) : Int :=
  (((secondsSince start finish).mul (Binary64.ofInt 1000)).truncate?).getD 0

end Instant

end StepRunner
