import StepRunner.Number.Shortest

/-!
# JSON values

Suites, stored snapshots and request bodies are JSON. A number written with a point or an exponent
is a `float`, any other an `int` without bounds, and the two stay apart. An object is a list of
fields in the order in which their keys first came; `set` keeps keys unique.

* `get?`: the value of a key;
* `isTruthy`: null, false, zeros and empty values are not;
* `kindName`: the type of a value, as a validation message names it.
-/

namespace StepRunner

/-- A JSON value. -/
inductive Json where
  | null
  | bool (b : Bool)
  | int (n : Int)
  | float (x : Binary64)
  | str (s : String)
  | arr (items : List Json)
  | obj (fields : List (String × Json))
  deriving Inhabited

namespace Json

/-! ## 1. Fields -/

/-- The value of a key in a list of fields. -/
def find? (fields : List (String × Json)) (key : String) : Option Json :=
  fields.lookup key

/-- Sets a key: its place is kept where the key is known, else the field comes last. -/
def set : List (String × Json) → String → Json → List (String × Json)
  | [], key, value => [(key, value)]
  | (k, v) :: rest, key, value =>
    if k = key then (key, value) :: rest else (k, v) :: set rest key value

/-- The value of a key in an object. -/
def get? : Json → String → Option Json
  | .obj fields, key => find? fields key
  | _, _ => none

/-- The value of a key, null where the key is missing. -/
def getD (j : Json) (key : String) : Json := (j.get? key).getD .null

/-! ## 2. Tests and views -/

/-- Null, false, zeros and empty values are not truthy. -/
def isTruthy : Json → Bool
  | .null => false
  | .bool b => b
  | .int n => n != 0
  | .float x => !x.isZero
  | .str s => s != ""
  | .arr items => !items.isEmpty
  | .obj fields => !fields.isEmpty

/-- The value is null. -/
def isNull : Json → Bool
  | .null => true
  | _ => false

/-- The string of a string value. -/
def asString? : Json → Option String
  | .str s => some s
  | _ => none

/-- The value, or none for null. -/
def nonNull? : Json → Option Json
  | .null => none
  | j => some j

/-- A text, or null. -/
def ofString? : Option String → Json
  | none => .null
  | some s => .str s

@[simp] theorem asString?_str (s : String) : asString? (.str s) = some s := rfl

@[simp] theorem ofString?_some (s : String) : ofString? (some s) = .str s := rfl

end Json

end StepRunner
