import StepRunner.CommandLine.Options
import StepRunner.CommandLine.Session
import StepRunner.Suite.Basic

/-!
# The command

`perform` carries out a command line: `opening` reads the options and the settings, loads the suite,
selects the cases and begins a session of their run; the session runs them, and `Opening.finish` leaves
the snapshot, the log and the report of the run in a folder of the run's id. A suite that cannot be
loaded is told and nothing is written. What the command leaves behind is a `Transcript`.
-/

namespace StepRunner.CommandLine

open Files

variable {σ : Type}

/-! ## 1. Surroundings and transcripts -/

/-- Where a command is carried out. -/
structure Surroundings (σ : Type) where
  environment : Environment := []
  /-- The files below the working folder. -/
  files : Tree
  now : Instant
  browser : Browser σ
  browserState : σ
  /-- The number of events after which the operator interrupts. -/
  interruptAfter : Option Nat := none

/-- What stopped a command that nothing here deals with. -/
inductive Escape where
  | settings (fault : SettingsFault)
  | file (fault : FileFault)
  | report (fault : ReportFault)
  | refusal (refusal : Refusal)
  deriving DecidableEq, Repr

/-- The wording of what stopped a command. -/
def Escape.message : Escape → String
  | .settings f => f.message
  | .file f => f.message
  | .report f => f.message
  | .refusal r => r.message

/-- How a command ended. -/
inductive Ending where
  | exit (code : Nat)
  | help
  | usage (fault : UsageFault)
  | escaped (escape : Escape)
  deriving DecidableEq, Repr

/-- What a command leaves behind. -/
structure Transcript where
  ending : Ending
  /-- The printed lines. -/
  printed : List String := []
  /-- What is told about the command itself. -/
  told : List JournalLine := []
  /-- The journal of the run. -/
  journal : List JournalLine := []
  files : Tree
  /-- The calls of all browser sessions, in order. -/
  trace : List Call := []

/-! ## 2. Before the run -/

/-- The settings as the options change them. -/
def Options.applied (o : Options) (s : Settings) : Settings :=
  { s with
    headless := s.headless && !o.headed
    outputRoot := ((o.output.filter (· != "")).map Path.ofString).getD s.outputRoot
    retainedRuns := max s.retainedRuns 1 }

/-- The configuration that the options ask for; null where they say nothing. -/
def Options.overrides (o : Options) : Json :=
  .obj [ ("concurrency", (o.concurrency.map Json.int).getD .null),
    ("environment", .ofString? o.environment),
    ("timeout", (o.timeout.map Json.int).getD .null) ]

/-- Why there is no suite to run. -/
inductive LoadStop where
  | escape (e : Escape)
  | fault (f : SuiteFault)

/-- The content of the suite's file. -/
def readSuite (files : Tree) (path : Path) : Except LoadStop Content :=
  match exists? files path with
  | .error f => .error (.escape (.file f))
  | .ok false => .error (.fault (.missingFile path.text))
  | .ok true => (read files path).mapError fun f => .escape (.file f)

/-- The suite that the options name, with the cases that they select. -/
def loadSuite (files : Tree) (o : Options) : Except LoadStop Suite := do
  let content ← readSuite files (Path.ofString o.suite)
  let suite ← (Suite.ofBytes content.toBytes o.overrides).mapError .fault
  let testCases ← (selectCases suite.testCases o.cases).mapError .fault
  return { suite with testCases }

/-- The cases of the suite in a file that a value lists; all of them if it lists none. -/
def loadCases (files : Tree) (path : Path) (ids : Json) : Except LoadStop (List TestCase) := do
  let content ← readSuite files path
  let suite ← (Suite.ofBytes content.toBytes .null).mapError .fault
  let listed ← (selection ids).mapError .fault
  (selectCases suite.testCases listed).mapError .fault

/-! ## 3. Files of a run -/

/-- A line of the log file. -/
def logLine (l : JournalLine) : String := l.severity.name ++ " | " ++ l.text ++ "\n"

/-- The log file of a run. -/
def logFile (folder : Path) : Path := folder.child "runner.log"

/-- Writes screenshots, which have a folder of their own. -/
def writeImages (folder : Path) (t : Tree) : List (String × List UInt8) → Except FileFault Unit × Tree
  | [] => (.ok (), t)
  | (name, bytes) :: rest =>
    let images := folder.child Report.imageFolder
    match makeFolders t images with
    | (.error f, t) => (.error f, t)
    | (.ok _, t) =>
      match write t (images.child name) (.bytes bytes) with
      | .error f => (.error f, t)
      | .ok t => writeImages folder t rest

/-- Writes a report. -/
def writeReport (folder : Path) (t : Tree) (r : Report) : Except FileFault Unit × Tree :=
  match writeImages folder t r.screenshots with
  | (.error f, t) => (.error f, t)
  | (.ok _, t) =>
    match write t (folder.child Report.textFile) (.text r.text) with
    | .error f => (.error f, t)
    | .ok t => (.ok (), t)

/-- The files of a store. -/
def storedFiles : Store → Tree
  | .folder _ tree => tree
  | .memory _ => {}

/-- The files with the log of a run. -/
def withLog (folder : Path) (t : Tree) (journal : List JournalLine) : Tree :=
  (write t (logFile folder) (.text (String.join (journal.map logLine)))).toOption.getD t

/-! ## 4. The run -/

/-- The transcript of a session that ended. -/
def transcript (s : Session σ) (folder : Path) (files : Tree) (ending : Ending) : Transcript :=
  { ending
    printed := s.printed
    journal := s.supervisor.journal
    files := withLog folder files s.supervisor.journal
    trace := s.trace }

/-- Reports on a run that is over. -/
def conclude (s : Session σ) (run : Run) (folder : Path) (o : Options) : Transcript :=
  let files := storedFiles s.supervisor.archive.store
  match Report.ofRun run s.supervisor.now, closingLines run folder with
  | .error f, _ => transcript s folder files (.escaped (.report f))
  | .ok report, closing =>
    match writeReport folder files report with
    | (.error f, files) => transcript s folder files (.escaped (.file f))
    | (.ok _, files) =>
      match closing with
      | .error f => transcript s folder files (.escaped (.report f))
      | .ok lines =>
        let snapshot := if o.summary then [run.toJson.indented] else []
        transcript { s with printed := s.printed ++ lines ++ snapshot } folder files
          (.exit (exitCode run))

/-- The supervisor of a command. -/
def supervisorFor (settings : Settings) (files : Tree) (now : Instant) : Supervisor :=
  { settings, archive := { store := .folder settings.outputRoot files }, now }

/-- A command whose session begins. -/
structure Opening (σ : Type) where
  options : Options
  run : Run
  /-- The folder of the run. -/
  folder : Path
  executor : Executor
  session : Session σ

/-- Opens the session of a run whose folder there is. -/
def openIn (w : Surroundings σ) (settings : Settings) (files : Tree) (folder : Path) (run : Run)
    (o : Options) : Except Transcript (Opening σ) :=
  let refused (s : Supervisor) (r : Refusal) : Transcript :=
    { ending := .escaped (.refusal r)
      journal := s.journal
      files := withLog folder (storedFiles s.archive.store) s.journal }
  match (supervisorFor settings files w.now).register run with
  | (.error r, s) => .error (refused s r)
  | (.ok _, s) =>
    match s.subscribe run.id with
    | (.error r, s) => .error (refused s r)
    | (.ok stream, s) =>
      match s.start run with
      | (.error r, s) => .error (refused s r)
      | (.ok _, supervisor) =>
        .ok {
          options := o
          run
          folder
          executor := Executor.create settings run.config.baseUrl.asString?
          session :=
            { supervisor, runId := run.id, stream, browser := w.browserState
              interruptAfter := w.interruptAfter } }

/-- Opens a session for the cases of a suite. -/
def openSuite (w : Surroundings σ) (settings : Settings) (suite : Suite) (o : Options) :
    Except Transcript (Opening σ) :=
  match Run.create suite.project suite.testCases suite.config w.now 1 with
  | .error f => .error { ending := .exit 2, told := [⟨.error, f.message⟩], files := w.files }
  | .ok run =>
    let folder := Store.runFolder settings.outputRoot run.id
    match makeFolders w.files folder with
    | (.error f, files) => .error { ending := .escaped (.file f), files }
    | (.ok _, files) =>
      match write files (logFile folder) (.text "") with
      | .error f => .error { ending := .escaped (.file f), files }
      | .ok files => openIn w settings files folder run o

/-! ## 5. Commands -/

/-- Opens the session that the options ask for. -/
def openWith (w : Surroundings σ) (o : Options) : Except Transcript (Opening σ) :=
  match Settings.ofEnvironment w.environment with
  | .error f => .error { ending := .escaped (.settings f), files := w.files }
  | .ok settings =>
    match loadSuite w.files o with
    | .error (.escape e) => .error { ending := .escaped e, files := w.files }
    | .error (.fault f) =>
      .error
        { ending := .exit 2
          told := [⟨.error, "Failed to load suite: " ++ f.message⟩]
          files := w.files }
    | .ok suite => openSuite w (o.applied settings) suite o

/-- Opens the session that a command line asks for; else all that it leaves behind. -/
def opening (w : Surroundings σ) (words : List String) : Except Transcript (Opening σ) :=
  match readOptions words with
  | .help => .error { ending := .help, files := w.files }
  | .refused f => .error { ending := .usage f, files := w.files }
  | .options o => openWith w o

/-- What a command leaves behind whose session ends like this. -/
def Opening.finish (x : Opening σ) (s : Session σ) : Transcript :=
  conclude s (s.run?.getD x.run) x.folder x.options

/-- Carries out a command line. -/
def perform (w : Surroundings σ) (words : List String) : Transcript :=
  match opening w words with
  | .error t => t
  | .ok x => x.finish (x.session.runCases x.executor w.browser x.run)

end StepRunner.CommandLine
