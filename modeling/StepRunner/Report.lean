import StepRunner.Case.Running
import StepRunner.Run.Basic

/-!
# Reports

The report of a run is a Markdown text with a summary and a table for each group of cases: failed,
passed, not run. A group without cases has no table. The screenshots of failed cases are files beside
the text, and the rows link to them.

* `Report.ofRun`: the report of a run;
* `cell`: a text as the content of a table cell;
* `fileName`: the name of a case's screenshot file.
-/

namespace StepRunner

open Text Number

/-- A report: its text, and the screenshot files in the order in which they are written. -/
structure Report where
  text : String
  screenshots : List (String × List UInt8)
  deriving DecidableEq, Repr, Inhabited

/-- Why there is no report. -/
inductive ReportFault where
  /-- A quotient beyond the binary64 format. -/
  | quotientTooLarge
  deriving DecidableEq, Repr

/-- The wording of a fault. -/
def ReportFault.message : ReportFault → String
  | .quotientTooLarge => "integer division result too large for a float"

namespace Report

/-! ## 1. Parts of a row -/

/-- A text as the content of a table cell: on one line, and with a backslash before every bar. -/
def cell : Option String → String
  | none => "N/A"
  | some s =>
    if s = "" then "N/A"
    else String.ofList (replaceChar '|' ['\\', '|'] (squeeze s.toList))

/-- A character that a file name keeps. -/
def isNameChar (c : Char) : Bool := isWord c || c == '.' || c == '-'

/-- The text with every run of other characters made one underscore. -/
def nameFrom (inRun : Bool) : List Char → List Char
  | [] => []
  | c :: rest =>
    if isNameChar c then c :: nameFrom false rest
    else if inRun then nameFrom true rest
    else '_' :: nameFrom true rest

/-- The text that stands for a case id in a file name. -/
def safeName (id : String) : String :=
  if id = "" then "case" else String.ofList (nameFrom false id.toList)

/-- The name of a case's screenshot file. -/
def fileName (id : String) : String := safeName id ++ ".png"

/-- The bytes of a screenshot that is given as a data URL. -/
def imageBytes? (screenshot : Option String) : Option (List UInt8) :=
  (screenshot.bind fun s => after? Case.imagePrefix.toList s.toList).bind Base64.decode?

/-- The file with the screenshot of a case, if it has one. -/
def imageFile? (c : TestCase) (r : CaseResult) : Option (String × List UInt8) :=
  (imageBytes? r.screenshot).map (fileName c.id, ·)

/-- The link to a screenshot file. -/
def link : Option (String × List UInt8) → String
  | none => "N/A"
  | some (name, _) => "[png](screenshots/" ++ name ++ ")"

/-- A number with a fixed number of places. -/
def fixedText (places : Nat) (x : Binary64) : String := String.ofList (x.fixed places)

/-- A quotient of whole numbers. -/
def quotient (n d : Int) : Except ReportFault Binary64 :=
  match Binary64.quotient? n d with
  | some x => .ok x
  | none => .error .quotientTooLarge

/-- Milliseconds as seconds. -/
def secondsText (milliseconds : Int) : Except ReportFault String :=
  (quotient milliseconds 1000).map fun x => fixedText 2 x ++ "s"

/-- The cells of a row. -/
def rowOf (cells : List String) : String := "| " ++ " | ".intercalate cells ++ " |"

/-- A case id as the content of a table cell. -/
def idCell (id : String) : String := "\x60" ++ id ++ "\x60"

/-! ## 2. Groups of cases -/

/-- Where a case stands in the report. -/
inductive Group where
  | failed
  | passed
  | notRun
  deriving DecidableEq, Repr

/-- A row of the report: its group, its text, and the screenshot file that it links to. -/
structure Row where
  group : Group
  text : String
  image : Option (String × List UInt8) := none
  deriving DecidableEq, Repr

/-- The row of a case. -/
def rowFor (run : Run) (c : TestCase) : Except ReportFault Row :=
  match run.caseResults.result? c.id with
  | none => .ok { group := .notRun, text := rowOf [idCell c.id, cell (some c.title)] }
  | some r => do
    let time ← secondsText r.duration
    if r.passed then
      return { group := .passed
               text := rowOf [idCell c.id, cell (some c.title), time, cell r.message] }
    else
      let image := imageFile? c r
      return { group := .failed, image
               text := rowOf [idCell c.id, cell (some c.title), time, cell r.error,
                 cell r.message, link image] }

/-- The rows of a run's cases, in order. -/
def rows (run : Run) : List TestCase → Except ReportFault (List Row)
  | [] => .ok []
  | c :: rest => do
    let row ← rowFor run c
    return row :: (← rows run rest)

/-- The heading of a group. -/
def heading : Group → String
  | .failed => "## Failed cases"
  | .passed => "## Passed cases"
  | .notRun => "## Not run"

/-- The names of a table's columns and the line below them. -/
def tableHead : Group → List String
  | .failed =>
    ["| Case ID | Title | Duration | Error | Message | Screenshot |",
      "|---------|-------|----------|-------|---------|------------|"]
  | .passed =>
    ["| Case ID | Title | Duration | Message |", "|---------|-------|----------|---------|"]
  | .notRun => ["| Case ID | Title |", "|---------|-------|"]

/-- The rows of a group. -/
def rowsOf (g : Group) (rows : List Row) : List Row := rows.filter (·.group == g)

/-- The lines of a group; none where it has no row. -/
def groupLines (rows : List Row) (g : Group) : List String :=
  if (rowsOf g rows).isEmpty then []
  else [heading g, ""] ++ tableHead g ++ (rowsOf g rows).map (·.text) ++ [""]

/-! ## 3. The report -/

/-- The share of the cases that passed, in percent. -/
def successRate (c : RunCounts) : Except ReportFault Binary64 :=
  if c.total = 0 then .ok (Binary64.ofInt 0)
  else (quotient c.passed c.total).map fun x => x.mul (Binary64.ofInt 100)

/-- A fact about the run, with two spaces at the end for a line break. -/
def fact (name value : String) : String := "**" ++ name ++ "**: " ++ value ++ "  "

/-- A moment to the second. -/
def momentText (t : Instant) : String := String.ofList t.date.reportText

/-- The facts about a run; one that has not ended is shown up to the present moment. -/
def facts (run : Run) (now : Instant) : List String :=
  let start := run.startedAt.getD run.createdAt
  let finish := run.completedAt.getD now
  [ fact "Run ID" (idCell run.id),
    fact "Project" run.project,
    fact "Status" run.status.name,
    fact "Environment" run.config.environment.plain,
    fact "Executed" (momentText start ++ " - " ++ momentText finish),
    fact "Duration" (fixedText 2 (start.secondsSince finish) ++ "s") ]
  ++ match run.error.filter (· != "") with
    | none => []
    | some e => [fact "Error" e]

/-- The summary of a run. -/
def summary (run : Run) (rate : Binary64) : List String :=
  [ "## Summary", "", "| Metric | Value |", "|------|------|",
    rowOf ["Total cases", numeral run.counts.total],
    rowOf ["Passed", numeral run.counts.passed],
    rowOf ["Failed", numeral run.counts.failed],
    rowOf ["Not run", numeral run.counts.pending],
    rowOf ["Success rate", fixedText 1 rate ++ "%"],
    rowOf ["Parallel workers", numeral run.config.concurrency], "" ]

/-- The lines of a report. -/
def lines (run : Run) (now : Instant) (rows : List Row) (rate : Binary64) : List String :=
  ["# Test Run Report", ""] ++ facts run now ++ [""] ++ summary run rate
  ++ groupLines rows .failed ++ groupLines rows .passed ++ groupLines rows .notRun
  ++ ["---", "", "*Generated at " ++ momentText now ++ " UTC*", ""]

/-- The report of a run. -/
def ofRun (run : Run) (now : Instant) : Except ReportFault Report := do
  let rows ← rows run run.testCases
  let rate ← successRate run.counts
  return { text := "\n".intercalate (lines run now rows rate)
           screenshots := rows.filterMap (·.image) }

/-- The file of the text. -/
def textFile : String := "test_report.md"

/-- The folder of the screenshots. -/
def imageFolder : String := "screenshots"

end Report

end StepRunner
