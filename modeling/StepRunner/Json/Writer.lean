import StepRunner.Json.Basic
import StepRunner.Text.Quoted

/-!
# JSON texts

Two forms of a value: `compact`, on one line with `, ` and `: `, and `indented`, one field or item
a line with two spaces a level. In both, a string escapes the double quote, the backslash and the
controls below the space, and shows every other character as it is; `ascii` is the compact form
with everything above ASCII escaped as well.

An integer of more than `Number.digitLimit` digits has no text. `draft` is what stands in a file when
the writing of such a value comes to its end.
-/

namespace StepRunner.Json

open Text Number

/-! ## 1. Strings and numbers -/

/-- A UTF-16 unit as an escape. -/
def unitEscape (n : Nat) : List Char := '\\' :: 'u' :: hexadecimal 4 n

/-- One character of a string. -/
def stringChar (c : Char) : List Char :=
  if c = '"' then ['\\', '"']
  else if c = '\\' then ['\\', '\\']
  else if c = '\n' then ['\\', 'n']
  else if c = '\r' then ['\\', 'r']
  else if c = '\t' then ['\\', 't']
  else if c = '\x08' then ['\\', 'b']
  else if c = '\x0c' then ['\\', 'f']
  else if c.toNat < 0x20 then unitEscape c.toNat
  else [c]

/-- One character of a string, escaped above ASCII. -/
def asciiChar (c : Char) : List Char :=
  let n := c.toNat
  if n < 0x7F then stringChar c
  else if n < 0x10000 then if n = 0x7F then [c] else unitEscape n
  else unitEscape (0xD800 + (n - 0x10000) / 0x400) ++ unitEscape (0xDC00 + (n - 0x10000) % 0x400)

/-- A string in double quotes. -/
def stringWith (char : Char → List Char) (s : String) : List Char :=
  '"' :: s.toList.flatMap char ++ ['"']

/-- A float, with names of its own for what is not finite. -/
def floatText : Binary64 → List Char
  | .nan => "NaN".toList
  | .infinite false => "Infinity".toList
  | .infinite true => "-Infinity".toList
  | x => x.text

/-! ## 2. One line -/

mutual

/-- The value on one line, characters of strings written by `char`. -/
def lineWith (char : Char → List Char) : Json → List Char
  | .null => "null".toList
  | .bool true => "true".toList
  | .bool false => "false".toList
  | .int n => decimalInt n
  | .float x => floatText x
  | .str s => stringWith char s
  | .arr items => '[' :: lineItems char items ++ [']']
  | .obj fields => '\x7b' :: lineFields char fields ++ ['\x7d']

/-- Items with `, ` between them. -/
def lineItems (char : Char → List Char) : List Json → List Char
  | [] => []
  | [j] => lineWith char j
  | j :: rest => lineWith char j ++ ", ".toList ++ lineItems char rest

/-- Fields with `, ` between them. -/
def lineFields (char : Char → List Char) : List (String × Json) → List Char
  | [] => []
  | [(k, j)] => stringWith char k ++ ": ".toList ++ lineWith char j
  | (k, j) :: rest => stringWith char k ++ ": ".toList ++ lineWith char j ++ ", ".toList
      ++ lineFields char rest

end

/-- The value on one line. -/
def compact (j : Json) : String := String.ofList (lineWith stringChar j)

/-- The value on one line, in ASCII. -/
def ascii (j : Json) : String := String.ofList (lineWith asciiChar j)

/-! ## 3. Indented -/

/-- A line break and the blanks of a level. -/
def newLine (level : Nat) : List Char := '\n' :: List.replicate (2 * level) ' '

mutual

/-- The value with its parts one level further in, from a level on. -/
def indentedAt (level : Nat) : Json → List Char
  | .arr [] => "[]".toList
  | .arr items => '[' :: newLine (level + 1) ++ indentedItems (level + 1) items ++ newLine level
      ++ [']']
  | .obj [] => ['\x7b', '\x7d']
  | .obj fields => '\x7b' :: newLine (level + 1) ++ indentedFields (level + 1) fields
      ++ newLine level ++ ['\x7d']
  | .null => "null".toList
  | .bool true => "true".toList
  | .bool false => "false".toList
  | .int n => decimalInt n
  | .float x => floatText x
  | .str s => stringWith stringChar s

/-- Items one a line. -/
def indentedItems (level : Nat) : List Json → List Char
  | [] => []
  | [j] => indentedAt level j
  | j :: rest => indentedAt level j ++ ',' :: newLine level ++ indentedItems level rest

/-- Fields one a line. -/
def indentedFields (level : Nat) : List (String × Json) → List Char
  | [] => []
  | [(k, j)] => stringWith stringChar k ++ ": ".toList ++ indentedAt level j
  | (k, j) :: rest => stringWith stringChar k ++ ": ".toList ++ indentedAt level j
      ++ ',' :: newLine level ++ indentedFields level rest

end

/-- The value with one field or item a line. -/
def indented (j : Json) : String := String.ofList (indentedAt 0 j)

/-! ## 4. Integers that are too long -/

/-- The integer has more digits than a text may have. -/
def isTooLong (n : Int) : Bool := digitLimit < (decimal n.natAbs).length

mutual

/-- No integer of the value is too long. -/
def isWritable : Json → Bool
  | .int n => !isTooLong n
  | .arr items => areWritable items
  | .obj fields => haveWritable fields
  | _ => true

/-- No integer of the items is too long. -/
def areWritable : List Json → Bool
  | [] => true
  | j :: rest => j.isWritable && areWritable rest

/-- No integer of the fields is too long. -/
def haveWritable : List (String × Json) → Bool
  | [] => true
  | (_, j) :: rest => j.isWritable && haveWritable rest

end

mutual

/-- What is written of a value up to its first integer that is too long. -/
def draftAt (level : Nat) : Json → List Char
  | .arr items => draftItems (level + 1) ('[' :: newLine (level + 1)) items
  | .obj fields => '\x7b' :: newLine (level + 1) ++ draftFields (level + 1) fields
  | _ => []

/-- The items up to there. What leads to an item is written together with it. -/
def draftItems (level : Nat) (lead : List Char) : List Json → List Char
  | [] => []
  | j :: rest =>
    if j.isWritable then lead ++ indentedAt level j ++ draftItems level (',' :: newLine level) rest
    else match j with
      | .int _ => []
      | j => lead ++ draftAt level j

/-- The fields up to there. -/
def draftFields (level : Nat) : List (String × Json) → List Char
  | [] => []
  | (k, j) :: rest =>
    stringWith stringChar k ++ ": ".toList ++
      if j.isWritable then indentedAt level j ++ ',' :: newLine level ++ draftFields level rest
      else draftAt level j

end

/-- What is written of a value up to its first integer that is too long. -/
def draft (j : Json) : String := String.ofList (draftAt 0 j)

/-- The words on an integer that is too long to be written. -/
def tooLongMessage : String :=
  "Exceeds the limit (" ++ numeral digitLimit
    ++ " digits) for integer string conversion; use sys.set_int_max_str_digits() to increase the limit"

end StepRunner.Json
