import StepRunner.Json.Basic
import StepRunner.Text.Quoted

/-!
# JSON values in messages

`Json.display` is how a message quotes a value: `None`, `True`, `False`, numbers, quoted texts,
`[…]` and `\{…}` with `, ` between parts. `Json.plain` is the same, but leaves a text unquoted.
-/

namespace StepRunner.Json

open Text Number

mutual

/-- The value as a message quotes it. -/
def displayChars : Json → List Char
  | .null => "None".toList
  | .bool true => "True".toList
  | .bool false => "False".toList
  | .int n => decimalInt n
  | .float x => x.text
  | .str s => quoted s.toList
  | .arr items => '[' :: displayItems items ++ [']']
  | .obj fields => '\x7b' :: displayFields fields ++ ['\x7d']

/-- Items with `, ` between them. -/
def displayItems : List Json → List Char
  | [] => []
  | [j] => displayChars j
  | j :: rest => displayChars j ++ ", ".toList ++ displayItems rest

/-- Fields with `, ` between them. -/
def displayFields : List (String × Json) → List Char
  | [] => []
  | [(k, j)] => quoted k.toList ++ ": ".toList ++ displayChars j
  | (k, j) :: rest => quoted k.toList ++ ": ".toList ++ displayChars j ++ ", ".toList
      ++ displayFields rest

end

/-- The value as a message quotes it. -/
def display (j : Json) : String := String.ofList j.displayChars

/-- The value as it stands in running text: a string without quotes. -/
def plain : Json → String
  | .str s => s
  | j => j.display

@[simp] theorem plain_str (s : String) : plain (.str s) = s := rfl

end StepRunner.Json
