import StepRunner.Files.Tree
import StepRunner.Json.Reader
import StepRunner.Json.Writer
import StepRunner.Run.Basic
import StepRunner.Text.Utf8

/-!
# Stores of runs

A store keeps the latest snapshot of every run. One kind keeps it in memory; the other writes it to
`run.json` in a folder of the run's id, by way of a file beside it that is then moved into place. The
second refuses to load ids that are no name of a folder of their own.
-/

namespace StepRunner

open Files

/-! ## 1. Faults -/

/-- Why a run was not saved. -/
inductive SaveFault where
  /-- The snapshot cannot be written. -/
  | persistence (message : String)
  /-- Something else broke. -/
  | crashed (message : String)
  /-- The id cannot be part of a path, or a number of the snapshot cannot be written. -/
  | badName {reason : String}
  deriving DecidableEq, Repr

/-- The wording of a fault. -/
def SaveFault.message : SaveFault → String
  | .persistence m => m
  | .crashed m => m
  | @badName reason => reason

/-- Why a snapshot was not loaded. -/
inductive LoadFault where
  | file (fault : FileFault)
  | encoding (refusal : Text.Utf8.Refusal)
  | text (error : Json.ReadError)
  deriving DecidableEq, Repr

/-- The wording of a fault. -/
def LoadFault.message : LoadFault → String
  | .file f => f.message
  | .encoding r => r.message
  | .text e => e.message

/-! ## 2. Stores -/

/-- A store of snapshots. -/
inductive Store where
  | memory (snapshots : List (String × Json))
  | folder (root : Path) (tree : Tree)
  deriving Inhabited

namespace Store

/-- The folder of a run. -/
def runFolder (root : Path) (id : String) : Path := root ++ Path.ofString id

/-- The file of a run's snapshot. -/
def snapshotFile (root : Path) (id : String) : Path := (runFolder root id).child "run.json"

/-- The file that is written first. -/
def draftFile (root : Path) (id : String) : Path := (runFolder root id).child "run.json.tmp"

/-- A fault of the files as one of the run. -/
def saveFault (id : String) : FileFault → SaveFault
  | .zeroCharacter => @SaveFault.badName FileFault.zeroCharacter.message
  | f => .persistence ("Failed to persist run " ++ id ++ ": " ++ f.message)

/-- The text that is written of a snapshot, as far as it can be written. -/
def draftOf (snapshot : Json) : String :=
  if snapshot.isWritable then snapshot.indented else snapshot.draft

/-- Writes the snapshot of a run into its folder. -/
def saveTo (root : Path) (tree : Tree) (run : Run) : Except SaveFault Unit × Tree :=
  match makeFolders tree (runFolder root run.id) with
  | (.error f, t) => (.error (saveFault run.id f), t)
  | (.ok _, t) =>
    match write t (draftFile root run.id) (.text (draftOf run.toJson)) with
    | .error f => (.error (saveFault run.id f), t)
    | .ok t =>
      if run.toJson.isWritable then
        match move t (draftFile root run.id) (snapshotFile root run.id) with
        | .error f => (.error (saveFault run.id f), t)
        | .ok t => (.ok (), t)
      else (.error (@SaveFault.badName Json.tooLongMessage), t)

/-- Saves the snapshot of a run. -/
def save (s : Store) (run : Run) : Except SaveFault Unit × Store :=
  match s with
  | .memory snapshots => (.ok (), .memory (Json.set snapshots run.id run.toJson))
  | .folder root tree =>
    let (r, tree) := saveTo root tree run
    (r, .folder root tree)

/-- The id is the name of one folder. -/
def isLoadable (id : String) : Bool :=
  id != "" && id != "." && id != ".." && !id.toList.contains '/'

/-- The value that a file holds. -/
def valueOf : Content → Except LoadFault Json
  | .text s => match Json.parse (String.ofList (Text.Utf8.unifyLineEnds s.toList)) with
    | .ok j => .ok j
    | .error e => .error (.text e)
  | .bytes b => match Text.Utf8.decode b with
    | .error r => .error (.encoding r)
    | .ok cs => match Json.parse (String.ofList (Text.Utf8.unifyLineEnds cs)) with
      | .ok j => .ok j
      | .error e => .error (.text e)

/-- Reads the snapshot of a run from its folder. -/
def loadFrom (root : Path) (tree : Tree) (id : String) : Except LoadFault (Option Json) :=
  match exists? tree (snapshotFile root id) with
  | .error f => .error (.file f)
  | .ok false => .ok none
  | .ok true => match read tree (snapshotFile root id) with
    | .error f => .error (.file f)
    | .ok c => (valueOf c).map some

/-- Loads the latest snapshot of a run. -/
def load (s : Store) (id : String) : Except LoadFault (Option Json) :=
  match s with
  | .memory snapshots => .ok (snapshots.lookup id)
  | .folder root tree => if isLoadable id then loadFrom root tree id else .ok none

/-- The latest snapshot of a run; none where it cannot be loaded or is null. -/
def snapshot? (s : Store) (id : String) : Option Json :=
  match s.load id with
  | .ok (some j) => j.nonNull?
  | _ => none

end Store

end StepRunner
