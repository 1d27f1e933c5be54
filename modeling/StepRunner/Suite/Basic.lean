import StepRunner.Case.Basic
import StepRunner.Config
import StepRunner.Json.Reader
import StepRunner.Suite.Schema
import StepRunner.Text.Utf8

/-!
# Suites

A suite is a project's test cases and the configuration they come with. `Suite.ofJson` checks a value
against the schema and reads it; `Suite.ofBytes` does so for the contents of a file. Where a test case
is read without a schema, its parts may be any values (`CaseEntry`), and only its id is made a text.

`selectCases` restricts a list of cases to given ids, and refuses ids that no case has.
-/

namespace StepRunner

open Text

/-! ## 1. Faults -/

/-- Why there is no such suite. -/
inductive SuiteFault where
  | missingFile (path : String)
  /-- The place of a suite is given by something that is no path. -/
  | noPath (kind : String)
  | encoding (refusal : Utf8.Refusal)
  | text (error : Json.ReadError)
  | schema (violation : Violation)
  | config (fault : ConfigFault)
  | duplicateCase (id : String)
  | missingKey (key : String)
  | unknownCases (ids : List String)
  /-- A pair of the configuration has another number of parts than two. -/
  | noPair (index length : Nat)
  /-- A value is not of a type that can be read as what it should be. -/
  | wrongType
  /-- Overrides that are no object. -/
  | noFields

/-- The wording of a fault. -/
def SuiteFault.message : SuiteFault → String
  | .missingFile path => "Suite file '" ++ path ++ "' not found"
  | .noPath kind => "Unsupported path type: <class '" ++ kind ++ "'>"
  | .encoding r => r.message
  | .text e => e.message
  | .schema v => v.breach.message
  | .config f => f.message
  | .duplicateCase id => "Duplicate test case id '" ++ id ++ "'"
  | .missingKey key => key
  | .unknownCases ids => "Unknown test case id(s): " ++ ", ".intercalate ids
  | .noPair i n =>
    "dictionary update sequence element #" ++ Number.numeral i ++ " has length "
      ++ Number.numeral n ++ "; 2 is required"
  | .wrongType => ""
  | .noFields => ""

/-! ## 2. Test cases -/

/-- The parts that a value is made of, one after the other. -/
def Json.parts? : Json → Option (List Json)
  | .arr items => some items
  | .str s => some (s.toList.map fun c => .str (String.singleton c))
  | .obj fields => some (fields.map fun (k, _) => .str k)
  | _ => none

/-- A test case whose parts may be any values. -/
structure CaseEntry where
  id : String
  title : Json
  steps : List Json
  expectedResult : Json
  description : Json

namespace CaseEntry

/-- The entry that a value gives; `seen` holds the ids before it. -/
def ofJson (seen : List String) (j : Json) : Except SuiteFault CaseEntry := do
  let .obj fields := j | throw .wrongType
  let some id := Json.find? fields "id" | throw (.missingKey "id")
  let id := id.plain
  if seen.contains id then throw (.duplicateCase id)
  let some title := Json.find? fields "title" | throw (.missingKey "title")
  let some steps := ((Json.find? fields "steps").getD (.arr [])).parts? | throw .wrongType
  return {
    id, title, steps
    expectedResult := (Json.find? fields "expectedResult").getD (.str "")
    description := (Json.find? fields "description").getD (.str "") }

/-- The entries that values give, with distinct ids. -/
def listOf (seen : List String) : List Json → Except SuiteFault (List CaseEntry)
  | [] => .ok []
  | j :: rest => do
    let entry ← ofJson seen j
    return entry :: (← listOf (entry.id :: seen) rest)

/-- The entries that the parts of a value give. -/
def ofParts (j : Json) : Except SuiteFault (List CaseEntry) :=
  match j.parts? with
  | none => .error .wrongType
  | some items => listOf [] items

/-- The text of a value that is one. -/
def textOf (j : Json) : String := j.asString?.getD ""

/-- The test case of an entry whose parts are texts. -/
def toTestCase (e : CaseEntry) : TestCase where
  id := e.id
  title := textOf e.title
  steps := e.steps.map textOf
  expectedResult := textOf e.expectedResult
  description := textOf e.description

end CaseEntry

/-! ## 3. Configurations -/

/-- A key and a value from a value of two parts; no key where the first part is no text. -/
def pairOf (index : Nat) (j : Json) : Except SuiteFault (Option (String × Json)) :=
  match j.parts? with
  | none => .error .wrongType
  | some [.str k, v] => .ok (some (k, v))
  | some [.arr _, _] => .error .wrongType
  | some [.obj _, _] => .error .wrongType
  | some [_, _] => .ok none
  | some parts => .error (.noPair index parts.length)

/-- The fields of a list of pairs. -/
def fieldsOfPairs (fields : List (String × Json)) : List (Json × Nat) →
    Except SuiteFault (List (String × Json))
  | [] => .ok fields
  | (j, i) :: rest => do
    match ← pairOf i j with
    | some (k, v) => fieldsOfPairs (Json.set fields k v) rest
    | none => fieldsOfPairs fields rest

/-- The fields of an object or of a list of pairs; none for what is not truthy. -/
def rawFields (j : Json) : Except SuiteFault (List (String × Json)) :=
  if !j.isTruthy then .ok []
  else match j with
    | .obj fields => .ok fields
    | j => match j.parts? with
      | none => .error .wrongType
      | some items => fieldsOfPairs [] items.zipIdx

/-- The configuration that a value and overrides give. -/
def RunConfig.ofRaw (raw overrides : Json) : Except SuiteFault RunConfig := do
  let fields ← rawFields raw
  let overrides ←
    if !overrides.isTruthy then pure []
    else match overrides with
      | .obj fields => pure fields
      | _ => throw .noFields
  match ofFields fields overrides with
  | .ok c => return c
  | .error f => throw (.config f)

/-! ## 4. Suites -/

/-- Test cases and the configuration they come with. -/
structure Suite where
  project : String
  config : RunConfig
  testCases : List TestCase

namespace Suite

/-- The project of a suite that names none. -/
def unnamedProject : String := "default"

/-- The suite that a value gives. -/
def ofJson (raw overrides : Json) : Except SuiteFault Suite := do
  match suiteSchema.check raw with
  | .error v => throw (.schema v)
  | .ok _ => pure ()
  let named := ((raw.get? "project").bind Json.asString?).filter (· != "")
  let config ← RunConfig.ofRaw (raw.getD "config") overrides
  let entries ← CaseEntry.ofParts (raw.getD "testCases")
  return { project := named.getD unnamedProject, config
           testCases := entries.map CaseEntry.toTestCase }

/-- The suite that a text gives. -/
def ofText (text : String) (overrides : Json) : Except SuiteFault Suite :=
  match Json.parse text with
  | .error e => .error (.text e)
  | .ok raw => ofJson raw overrides

/-- The suite that the contents of a file give. -/
def ofBytes (bytes : List UInt8) (overrides : Json) : Except SuiteFault Suite :=
  match Utf8.decode bytes with
  | .error r => .error (.encoding r)
  | .ok cs => ofText (String.ofList (Utf8.unifyLineEnds cs)) overrides

end Suite

/-! ## 5. Selections -/

/-- Puts a text in its place among sorted ones, unless it is there. -/
def insertSorted (s : String) : List String → List String
  | [] => [s]
  | t :: rest => if s = t then t :: rest else if s < t then s :: t :: rest else t :: insertSorted s rest

/-- The texts in order, each once. -/
def sortedOnce (texts : List String) : List String := texts.foldr insertSorted []

/-- The ids that no case has, in order and each once. -/
def unknownIds (cases : List TestCase) (ids : List String) : List String :=
  sortedOnce (ids.filter fun id => !cases.any (·.id == id))

/-- The cases whose id is listed. -/
def chosenCases (cases : List TestCase) (ids : List String) : List TestCase :=
  cases.filter fun c => ids.contains c.id

/-- The ids that a value lists; none for what is not truthy. -/
def selection (j : Json) : Except SuiteFault (List String) :=
  if !j.isTruthy then .ok []
  else match j.parts? with
    | none => .error .wrongType
    | some items => .ok (items.map Json.plain)

/-- The cases whose id is listed; all of them if none is. Every listed id must be that of a case. -/
def selectCases (cases : List TestCase) (ids : List String) : Except SuiteFault (List TestCase) :=
  if ids.isEmpty then .ok cases
  else
    let unknown := unknownIds cases ids
    if unknown.isEmpty then .ok (chosenCases cases ids) else .error (.unknownCases unknown)

end StepRunner
