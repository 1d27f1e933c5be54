import StepRunner.Files.Path
import StepRunner.Text.Quoted

/-!
# File trees

A tree of folders and files. A path is walked part by part from the top: every part but the last must
name a folder, two dots lead to the folder above, and no part may be longer than `nameLimit` bytes.
Operations fail with a `FileFault`, which names its cause and the path as it was given.
-/

namespace StepRunner.Files

open Text

/-! ## 1. Trees -/

/-- The content of a file. -/
inductive Content where
  | text (s : String)
  | bytes (b : List UInt8)
  deriving DecidableEq, Repr, Inhabited

/-- The bytes of a content. -/
def Content.toBytes : Content → List UInt8
  | .text s => s.toUTF8.toList
  | .bytes b => b

/-- A place in the tree: the names that lead to it from the top. -/
abbrev Place := List String

/-- Folders and files by place. The top is a folder. -/
structure Tree where
  folders : List Place := []
  files : List (Place × Content) := []
  deriving DecidableEq, Repr, Inhabited

/-- What stands at a place. -/
inductive Entry where
  | folder
  | file (content : Content)
  | nothing
  deriving DecidableEq, Repr

namespace Tree

/-- What stands at a place. -/
def entry (t : Tree) (p : Place) : Entry :=
  if p.isEmpty || t.folders.contains p then .folder
  else match t.files.lookup p with
    | some c => .file c
    | none => .nothing

/-- The tree with a folder. -/
def addFolder (t : Tree) (p : Place) : Tree := { t with folders := t.folders ++ [p] }

/-- The files with one in its place, or as the last. -/
def putFile (p : Place) (c : Content) : List (Place × Content) → List (Place × Content)
  | [] => [(p, c)]
  | (q, d) :: rest => if q = p then (p, c) :: rest else (q, d) :: putFile p c rest

/-- The tree with a file, which replaces one of the same place. -/
def addFile (t : Tree) (p : Place) (c : Content) : Tree := { t with files := putFile p c t.files }

/-- The tree without a file. -/
def dropFile (t : Tree) (p : Place) : Tree :=
  { t with files := t.files.filter fun (q, _) => q != p }

end Tree

/-! ## 2. Faults -/

/-- Why a path cannot be used. -/
inductive PathCause where
  | missing
  | exists
  | notFolder
  | isFolder
  | nameTooLong
  deriving DecidableEq, Repr

/-- The number and the words of a cause. -/
def PathCause.words : PathCause → String
  | .missing => "[Errno 2] No such file or directory"
  | .exists => "[Errno 17] File exists"
  | .notFolder => "[Errno 20] Not a directory"
  | .isFolder => "[Errno 21] Is a directory"
  | .nameTooLong => "[Errno 36] File name too long"

/-- Why an operation on files failed. -/
inductive FileFault where
  | path (cause : PathCause) (path : String)
  | move (cause : PathCause) (source target : String)
  | zeroCharacter
  deriving DecidableEq, Repr

/-- The wording of a fault. -/
def FileFault.message : FileFault → String
  | .path cause p => cause.words ++ ": " ++ quote p
  | .move cause p q => cause.words ++ ": " ++ quote p ++ " -> " ++ quote q
  | .zeroCharacter => "embedded null byte"

/-! ## 3. Walking -/

/-- The most bytes that a name may have. -/
def nameLimit : Nat := 255

/-- The place that a list of names leads to from a folder, and what stands there. -/
def walk (t : Tree) (folder : Place) : List String → Except PathCause (Place × Entry)
  | [] => .ok (folder, .folder)
  | name :: rest =>
    if nameLimit < name.utf8ByteSize then .error .nameTooLong
    else
      let next := if name = ".." then folder.dropLast else folder ++ [name]
      match t.entry next with
      | .folder => walk t next rest
      | .file c => if rest.isEmpty then .ok (next, .file c) else .error .notFolder
      | .nothing => if rest.isEmpty then .ok (next, .nothing) else .error .missing

/-- Where a path leads from the top, and what stands there. -/
def find (t : Tree) (p : Path) : Except FileFault (Place × Entry) :=
  if p.hasZero then .error .zeroCharacter
  else match walk t [] p.parts with
    | .ok found => .ok found
    | .error cause => .error (.path cause p.text)

/-! ## 4. Operations -/

/-- Something stands at the path. A path that leads nowhere is no fault, one with an impossible name
    is. -/
def exists? (t : Tree) (p : Path) : Except FileFault Bool :=
  match find t p with
  | .ok (_, .nothing) => .ok false
  | .ok _ => .ok true
  | .error (.path .missing _) => .ok false
  | .error (.path .notFolder _) => .ok false
  | .error .zeroCharacter => .ok false
  | .error f => .error f

/-- Makes one folder, or leaves one that is there. -/
def makeFolder (t : Tree) (p : Path) : Except FileFault Tree :=
  match find t p with
  | .error f => .error f
  | .ok (_, .folder) => .ok t
  | .ok (_, .file _) => .error (.path .exists p.text)
  | .ok (place, .nothing) => .ok (t.addFolder place)

/-- Makes a folder, and before it those above it that are missing; at most `fuel` of them. -/
def makeFoldersFrom : Nat → Tree → Path → Except FileFault Unit × Tree
  | 0, t, p => (.error (.path .missing p.text), t)
  | fuel + 1, t, p =>
    match makeFolder t p with
    | .ok t => (.ok (), t)
    | .error (.path .missing _) =>
      match makeFoldersFrom fuel t p.parent with
      | (.error f, t) => (.error f, t)
      | (.ok _, t) =>
        match makeFolder t p with
        | .ok t => (.ok (), t)
        | .error f => (.error f, t)
    | .error f => (.error f, t)

/-- Makes a folder, and before it those above it that are missing. -/
def makeFolders (t : Tree) (p : Path) : Except FileFault Unit × Tree :=
  makeFoldersFrom (p.parts.length + 1) t p

/-- Writes a file. -/
def write (t : Tree) (p : Path) (c : Content) : Except FileFault Tree :=
  match find t p with
  | .error f => .error f
  | .ok (_, .folder) => .error (.path .isFolder p.text)
  | .ok (place, _) => .ok (t.addFile place c)

/-- Moves a file onto another place. -/
def move (t : Tree) (p q : Path) : Except FileFault Tree :=
  match find t p, find t q with
  | .ok (source, .file c), .ok (target, .file _) => .ok ((t.dropFile source).addFile target c)
  | .ok (source, .file c), .ok (target, .nothing) => .ok ((t.dropFile source).addFile target c)
  | .ok _, .ok (_, .folder) => .error (.move .isFolder p.text q.text)
  | .ok _, .ok _ => .error (.move .missing p.text q.text)
  | .error f, _ => .error f
  | _, .error f => .error f

/-- Reads a file. -/
def read (t : Tree) (p : Path) : Except FileFault Content :=
  match find t p with
  | .error f => .error f
  | .ok (_, .folder) => .error (.path .isFolder p.text)
  | .ok (_, .file c) => .ok c
  | .ok (_, .nothing) => .error (.path .missing p.text)

end StepRunner.Files
