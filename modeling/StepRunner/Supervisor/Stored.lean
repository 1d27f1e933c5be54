import StepRunner.Event

/-!
# Progress from a stored snapshot

A stored snapshot may have been written by anyone, so its counts may be any values. How many cases
have ended is the sum of two of them, where numbers add up, texts and lists are put together, and
nothing else has a sum.
-/

namespace StepRunner

/-- Why a stored snapshot does not tell how far the run is. -/
inductive StoredFault where
  | missingKey (key : String)
  /-- A value is not of a kind that has parts, or sums. -/
  | wrongType
  /-- An integer is beyond the binary64 format. -/
  | tooLarge
  deriving DecidableEq, Repr

/-- The wording of a fault. -/
def StoredFault.message : StoredFault → String
  | .missingKey key => key
  | .wrongType => ""
  | .tooLarge => "int too large to convert to float"

/-- The integer of a number without a fraction; a truth value counts as zero or one. -/
def Json.asInteger? : Json → Option Int
  | .int n => some n
  | .bool b => some (if b then 1 else 0)
  | _ => none

/-- A sum in binary64. -/
def Binary64.plusInt (x : Binary64) (n : Int) : Except StoredFault Json :=
  match Binary64.ofInt n with
  | .infinite _ => .error .tooLarge
  | y => .ok (.float (x.add y))

/-- The sum of two values. -/
def Json.plus (a b : Json) : Except StoredFault Json :=
  match a, b with
  | .float x, .float y => .ok (.float (x.add y))
  | .str s, .str t => .ok (.str (s ++ t))
  | .arr l, .arr m => .ok (.arr (l ++ m))
  | .float x, j => match j.asInteger? with
    | some n => x.plusInt n
    | none => .error .wrongType
  | j, .float y => match j.asInteger? with
    | some n => y.plusInt n
    | none => .error .wrongType
  | i, j => match i.asInteger?, j.asInteger? with
    | some m, some n => .ok (.int (m + n))
    | _, _ => .error .wrongType

/-- The value of a key. -/
def storedPart (j : Json) (key : String) : Except StoredFault Json :=
  match j with
  | .obj fields => match Json.find? fields key with
    | some v => .ok v
    | none => .error (.missingKey key)
  | _ => .error .wrongType

/-- How far the run of a stored snapshot is. -/
def storedProgress (snapshot : Json) : Except StoredFault Happening := do
  let results ← storedPart snapshot "results"
  let passed ← storedPart results "passed"
  let failed ← storedPart results "failed"
  let completed ← passed.plus failed
  let total ← storedPart results "total"
  return .progress completed total

end StepRunner
