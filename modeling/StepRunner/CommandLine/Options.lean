import StepRunner.Number.Decimal
import StepRunner.Text.Quoted

/-!
# Options of the command line

`readOptions` reads the words of a command line. Every word is classified first, so that a word that
could mean two options is refused before any other is looked at; then the words are read from left to
right. A long option may be shortened as long as it is the only one to begin so, and its value stands in
the next word or behind an equals sign. After `--` every word is a plain one, and no plain word is
expected outside an option.
-/

namespace StepRunner.CommandLine

open Text Number

/-! ## 1. Options -/

/-- The options. -/
inductive Opt where
  | help
  | suite
  | caseId
  | concurrency
  | environment
  | timeout
  | output
  | headed
  | summary
  deriving DecidableEq, Repr, Inhabited

namespace Opt

/-- The spellings of all options, in the order in which they are listed. -/
def spellings : List (String × Opt) :=
  [ ("-h", .help), ("--help", .help), ("--suite", .suite), ("--case", .caseId),
    ("--concurrency", .concurrency), ("--environment", .environment), ("--timeout", .timeout),
    ("--output", .output), ("--headed", .headed), ("--summary", .summary) ]

/-- The option's name in messages: all its spellings. -/
def name (o : Opt) : String :=
  "/".intercalate ((spellings.filter fun (_, p) => p == o).map (·.1))

/-- The option has a value. -/
def hasValue : Opt → Bool
  | .help | .headed | .summary => false
  | _ => true

end Opt

/-- What the command line asks for. -/
structure Options where
  suite : String := ""
  /-- The ids of the cases to run; all of them where there is none. -/
  cases : List String := []
  concurrency : Option Int := none
  environment : Option String := none
  /-- Milliseconds. -/
  timeout : Option Int := none
  output : Option String := none
  headed : Bool := false
  summary : Bool := false
  deriving DecidableEq, Repr, Inhabited

/-! ## 2. Faults -/

/-- Why a command line was refused. -/
inductive UsageFault where
  | ambiguous (word : String) (spellings : List String)
  | noValue (option : Opt)
  | needlessValue (option : Opt) (value : String)
  | noInteger (option : Opt) (value : String)
  | noSuite
  | unrecognized (words : List String)
  deriving DecidableEq, Repr

/-- The wording of a fault. -/
def UsageFault.message : UsageFault → String
  | .ambiguous word spellings =>
    "ambiguous option: " ++ word ++ " could match " ++ ", ".intercalate spellings
  | .noValue o => "argument " ++ o.name ++ ": expected one argument"
  | .needlessValue o v => "argument " ++ o.name ++ ": ignored explicit argument " ++ quote v
  | .noInteger o v => "argument " ++ o.name ++ ": invalid int value: " ++ quote v
  | .noSuite => "the following arguments are required: " ++ Opt.suite.name
  | .unrecognized words => "unrecognized arguments: " ++ " ".intercalate words

/-! ## 3. Classifying words -/

/-- What a word is. -/
inductive Word where
  | plain (text : String)
  /-- The word after which all are plain. -/
  | endOfOptions
  /-- An option, with the value behind its equals sign, if there is one. -/
  | option (o : Opt) (value : Option String)
  /-- The short option with more letters behind it. -/
  | cluster (letters : List Char)
  /-- An option that there is not. -/
  | unknown (text : String)
  deriving DecidableEq, Repr

/-- A negative number: digits behind a minus sign, perhaps with a point before the last of them. -/
def isNegativeNumber : List Char → Bool
  | '-' :: cs =>
    let rest := cs.dropWhile isDigit
    let body := match rest with
      | ['\n'] => []
      | _ => rest
    match body with
    | [] => cs.head?.any isDigit
    | '.' :: more =>
      let tail := more.dropWhile isDigit
      more.head?.any isDigit && (tail.isEmpty || tail == ['\n'])
    | _ => false
  | _ => false

/-- The text before the first equals sign, and the one behind it. -/
def splitValue (cs : List Char) : List Char × Option String :=
  if cs.contains '=' then
    (cs.takeWhile (· != '='), some (String.ofList ((cs.dropWhile (· != '=')).drop 1)))
  else (cs, none)

/-- The options with a spelling that begins like this. -/
def beginning (cs : List Char) : List (String × Opt) :=
  Opt.spellings.filter fun (s, _) => (after? cs s.toList).isSome

/-- What a word is that begins with a minus sign and spells no option in full. -/
def shortened (cs : List Char) : Except UsageFault (Option Word) :=
  match cs with
  | '-' :: '-' :: _ =>
    let (start, value) := splitValue cs
    match beginning start with
    | [] => .ok none
    | [(_, o)] => .ok (some (.option o value))
    | many => .error (.ambiguous (String.ofList cs) (many.map (·.1)))
  | '-' :: 'h' :: letters => .ok (some (.cluster letters))
  | _ => .ok none

/-- What a word is. -/
def classify (s : String) : Except UsageFault Word :=
  let cs := s.toList
  let (start, value) := splitValue cs
  if cs.head? ≠ some '-' ∨ cs.length = 1 then .ok (.plain s)
  else match Opt.spellings.lookup s with
    | some o => .ok (.option o none)
    | none => match value, Opt.spellings.lookup (String.ofList start) with
      | some v, some o => .ok (.option o (some v))
      | _, _ => (shortened cs).map fun word =>
        word.getD (if isNegativeNumber cs || cs.contains ' ' then .plain s else .unknown s)

/-- What the words are. -/
def classifyAll : List String → Except UsageFault (List Word)
  | [] => .ok []
  | s :: rest =>
    if s = "--" then .ok (.endOfOptions :: rest.map .plain)
    else do
      let word ← classify s
      return word :: (← classifyAll rest)

/-! ## 4. Reading -/

/-- How reading a command line ends. -/
inductive Reading where
  | options (o : Options)
  | help
  | refused (fault : UsageFault)
  deriving DecidableEq, Repr

/-- Why reading stops before the end. -/
inductive Stop where
  | help
  | fault (f : UsageFault)

/-- An integer as the value of an option. -/
def integerOf (o : Opt) (value : String) : Except Stop Int :=
  match readInt? value.toList with
  | some n => .ok n
  | none => .error (.fault (.noInteger o value))

/-- The options with the value of one more. -/
def Options.set (a : Options) (o : Opt) (value : String) : Except Stop Options :=
  match o with
  | .suite => .ok { a with suite := value }
  | .caseId => .ok { a with cases := a.cases ++ [value] }
  | .environment => .ok { a with environment := some value }
  | .output => .ok { a with output := some value }
  | .concurrency => (integerOf o value).map fun n => { a with concurrency := some n }
  | .timeout => (integerOf o value).map fun n => { a with timeout := some n }
  | _ => .error (.fault (.needlessValue o value))

/-- The options with one more that has no value. -/
def Options.switch (a : Options) (o : Opt) : Except Stop Options :=
  match o with
  | .help => .error .help
  | .headed => .ok { a with headed := true }
  | .summary => .ok { a with summary := true }
  | _ => .error (.fault (.noValue o))

/-- What the short option with more letters behind it comes to: help, unless a value follows. -/
def clusterStop : List Char → Stop
  | 'h' :: rest => match rest with
    | [] => .help
    | '=' :: value => .fault (.needlessValue .help (String.ofList value))
    | _ => clusterStop rest
  | '-' :: rest => .fault (.needlessValue .help (String.ofList ('-' :: rest)))
  | _ => .help

/-- What has been read: the options, whether the suite is among them, and the words left over. -/
structure Progress where
  options : Options := {}
  hasSuite : Bool := false
  left : List String := []

namespace Progress

/-- One more word is left over. -/
def skip (p : Progress) (s : String) : Progress := { p with left := p.left ++ [s] }

/-- One more option has its value. -/
def take (p : Progress) (o : Opt) (value : String) : Except Stop Progress :=
  (p.options.set o value).map fun options =>
    { p with options, hasSuite := p.hasSuite || o == .suite }

end Progress

/-- Reads words from left to right. -/
def readWords (p : Progress) : List Word → Except Stop Progress
  | [] => .ok p
  | .plain s :: rest => readWords (p.skip s) rest
  | .endOfOptions :: rest => readWords (p.skip "--") rest
  | .unknown s :: rest => readWords (p.skip s) rest
  | .cluster letters :: _ => .error (clusterStop letters)
  | .option o (some value) :: rest => do readWords (← p.take o value) rest
  | .option o none :: rest =>
    if o.hasValue then
      match rest with
      | .plain value :: rest => do readWords (← p.take o value) rest
      | _ => .error (.fault (.noValue o))
    else do readWords { p with options := ← p.options.switch o } rest

/-- What reading has come to at the end. -/
def Progress.finish (p : Progress) : Reading :=
  if !p.hasSuite then .refused .noSuite
  else if p.left.isEmpty then .options p.options
  else .refused (.unrecognized p.left)

/-- Reads a command line. -/
def readOptions (words : List String) : Reading :=
  match classifyAll words with
  | .error f => .refused f
  | .ok ws => match readWords {} ws with
    | .ok p => p.finish
    | .error .help => .help
    | .error (.fault f) => .refused f

/-! ## 5. Texts -/

/-- The name of the program. -/
def programName : String := "nl-test-runner"

/-- The last line about a refused command line. -/
def UsageFault.line (f : UsageFault) : String := programName ++ ": error: " ++ f.message

/-- What the program can be asked. -/
def helpText : String :=
  "usage: " ++ programName ++ " --suite SUITE [options]\n\n"
    ++ "Run a natural-language browser test suite\n\n"
    ++ "  --suite SUITE              path to the suite JSON file\n"
    ++ "  --case ID                  only run the test case with this id (repeatable)\n"
    ++ "  --concurrency N            number of cases executed in parallel (1-20)\n"
    ++ "  --environment LABEL        environment label recorded on the run\n"
    ++ "  --timeout MS               run timeout in milliseconds\n"
    ++ "  --output FOLDER            folder where run artifacts are stored\n"
    ++ "  --headed                   run the browser in headed mode\n"
    ++ "  --summary                  print the snapshot of the run at the end\n"

end StepRunner.CommandLine
