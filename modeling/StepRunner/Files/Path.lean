import StepRunner.Text.Basic

/-!
# Paths

A path is a root mark and a list of parts. Reading one drops empty parts and single dots, and keeps
double dots; exactly two slashes in front are a root mark of their own.
-/

namespace StepRunner.Files

open Text

/-- A path: `""`, `"/"` or `"//"`, and the parts below it. -/
structure Path where
  root : String
  parts : List String
  deriving DecidableEq, Repr, Inhabited

namespace Path

/-- The root mark of a text. -/
def rootOf (cs : List Char) : String :=
  match (cs.takeWhile (· == '/')).length with
  | 0 => ""
  | 2 => "//"
  | _ => "/"

/-- The path that a text names. -/
def ofString (text : String) : Path :=
  { root := rootOf text.toList
    parts := ((splitOn '/' text.toList).filter fun p => !p.isEmpty && p != ['.']).map String.ofList }

/-- The parts with slashes between them. -/
def joinParts (parts : List String) : List Char := joinWith ['/'] (parts.map String.toList)

/-- The text of a path; a dot where it names nothing. -/
def text (p : Path) : String :=
  if p.root == "" && p.parts.isEmpty then "."
  else p.root ++ String.ofList (joinParts p.parts)

/-- The zero character is in the text of the path. -/
@[irreducible] def hasZero (p : Path) : Bool := p.text.toList.contains (Char.ofNat 0)

/-- A path below another; one with a root mark stands alone. -/
def append (p q : Path) : Path :=
  if q.root == "" then { p with parts := p.parts ++ q.parts } else q

instance : Append Path := ⟨append⟩

/-- A further part. -/
def child (p : Path) (name : String) : Path := { p with parts := p.parts ++ [name] }

/-- The path without its last part. -/
def parent (p : Path) : Path := { p with parts := p.parts.dropLast }

/-- The last part; empty where there is none. -/
def name (p : Path) : String := p.parts.getLast?.getD ""

end Path

end StepRunner.Files
