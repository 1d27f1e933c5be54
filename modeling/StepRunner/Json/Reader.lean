import StepRunner.Json.Basic

/-!
# Reading JSON

`Json.parse` reads one value with blanks around it. Beyond the standard, `NaN`, `Infinity` and
`-Infinity` are numbers; a control character inside a string, a leading byte order mark and an
integer of more than `Number.digitLimit` digits are refused. Where a key comes twice, its last
value counts. A surrogate escape without its partner reads as the replacement character.

A refusal names its cause and the place, as line, column and character offset. The readers know a
place by how much text is left there; `parse` turns that into the offset.
-/

namespace StepRunner.Json

open Number

/-! ## 1. Refusals -/

/-- Why a text is no JSON value. -/
inductive Cause where
  | expectingValue
  | expectingName
  | expectingColon
  | expectingComma
  | unterminatedString
  | controlCharacter
  | escape
  | unicodeEscape
  | extraData
  | byteOrderMark
  | tooManyDigits (digits : Nat)
  deriving DecidableEq, Repr

/-- The words for a cause. -/
def Cause.words : Cause → String
  | .expectingValue => "Expecting value"
  | .expectingName => "Expecting property name enclosed in double quotes"
  | .expectingColon => "Expecting ':' delimiter"
  | .expectingComma => "Expecting ',' delimiter"
  | .unterminatedString => "Unterminated string starting at"
  | .controlCharacter => "Invalid control character at"
  | .escape => "Invalid \\escape"
  | .unicodeEscape => "Invalid \\uXXXX escape"
  | .extraData => "Extra data"
  | .byteOrderMark => "Unexpected UTF-8 BOM (decode using utf-8-sig)"
  | .tooManyDigits digits =>
    "Exceeds the limit (" ++ numeral digitLimit
      ++ " digits) for integer string conversion: value has " ++ numeral digits
      ++ " digits; use sys.set_int_max_str_digits() to increase the limit"

/-- A refusal inside the text: its cause, and how many characters are left at its place. -/
structure Refusal where
  cause : Cause
  left : Nat
  deriving DecidableEq, Repr

/-- A refusal with its place in the text. -/
structure ReadError where
  cause : Cause
  line : Nat
  column : Nat
  offset : Nat
  deriving DecidableEq, Repr

/-- The cause and, unless it is about a number's size, the place. -/
def ReadError.message (e : ReadError) : String :=
  match e.cause with
  | .tooManyDigits _ => e.cause.words
  | _ => e.cause.words ++ ": line " ++ numeral e.line ++ " column "
      ++ numeral e.column ++ " (char " ++ numeral e.offset ++ ")"

/-- Line, column and offset of the place with `left` characters to go. -/
def Refusal.locate (text : List Char) (r : Refusal) : ReadError :=
  let offset := text.length - r.left
  let before := text.take offset
  { cause := r.cause
    line := before.count '\n' + 1
    column := (before.reverse.takeWhile (· != '\n')).length + 1
    offset := offset }

/-! ## 2. Blanks and strings -/

/-- Blanks between tokens. -/
def isSpace (c : Char) : Bool := c == ' ' || c == '\t' || c == '\n' || c == '\r'

/-- The text without leading blanks. -/
def skipSpace (cs : List Char) : List Char := cs.dropWhile isSpace

/-- The value of a hexadecimal digit. -/
def hexValue? (c : Char) : Option Nat :=
  if '0' ≤ c ∧ c ≤ '9' then some (c.toNat - 48)
  else if 'a' ≤ c ∧ c ≤ 'f' then some (c.toNat - 87)
  else if 'A' ≤ c ∧ c ≤ 'F' then some (c.toNat - 55)
  else none

/-- Four hexadecimal digits, with something after them. -/
def unit? : List Char → Option (Nat × List Char)
  | a :: b :: c :: d :: e :: rest => do
    let a ← hexValue? a
    let b ← hexValue? b
    let c ← hexValue? c
    let d ← hexValue? d
    some (((a * 16 + b) * 16 + c) * 16 + d, e :: rest)
  | _ => none

/-- A first half of a surrogate pair. -/
def isHighSurrogate (n : Nat) : Bool := 0xD800 ≤ n && n ≤ 0xDBFF

/-- A second half of a surrogate pair. -/
def isLowSurrogate (n : Nat) : Bool := 0xDC00 ≤ n && n ≤ 0xDFFF

/-- The character of a UTF-16 unit; a surrogate stands for the replacement character. -/
def unitChar (n : Nat) : Char :=
  if isHighSurrogate n || isLowSurrogate n then '\uFFFD' else Char.ofNat n

/-- The character of an escape after `\u`, which has `left` characters from the `u` on. -/
def unicodeEscape (left : Nat) (cs : List Char) : Except Refusal (Char × List Char) :=
  match unit? cs with
  | none => .error ⟨.unicodeEscape, left⟩
  | some (high, rest) =>
    match rest with
    | '\\' :: 'u' :: more =>
      if isHighSurrogate high && 5 ≤ more.length then
        match unit? more with
        | none => .error ⟨.unicodeEscape, more.length + 1⟩
        | some (low, rest') =>
          if isLowSurrogate low then
            .ok (Char.ofNat (0x10000 + (high - 0xD800) * 0x400 + (low - 0xDC00)), rest')
          else .ok (unitChar high, rest)
      else .ok (unitChar high, rest)
    | _ => .ok (unitChar high, rest)

/-- The character of an escape by letter. -/
def letterEscape? : Char → Option Char
  | '"' => some '"'
  | '\\' => some '\\'
  | '/' => some '/'
  | 'b' => some '\x08'
  | 'f' => some '\x0c'
  | 'n' => some '\n'
  | 'r' => some '\r'
  | 't' => some '\t'
  | _ => none

/-- The string up to its closing quote. `opened` characters were left at its opening quote, and
    `fuel` bounds the characters to read. -/
def readString (opened : Nat) : Nat → List Char → List Char →
    Except Refusal (String × List Char)
  | 0, _, _ => .error ⟨.unterminatedString, opened⟩
  | _ + 1, _, [] => .error ⟨.unterminatedString, opened⟩
  | fuel + 1, read, c :: rest =>
    if c = '"' then .ok (String.ofList read.reverse, rest)
    else if c = '\\' then
      match rest with
      | [] => .error ⟨.unterminatedString, opened⟩
      | 'u' :: more =>
        match unicodeEscape (more.length + 1) more with
        | .error r => .error r
        | .ok (x, rest') => readString opened fuel (x :: read) rest'
      | e :: more =>
        match letterEscape? e with
        | none => .error ⟨.escape, more.length + 2⟩
        | some x => readString opened fuel (x :: read) more
    else if c.toNat < 0x20 then .error ⟨.controlCharacter, rest.length + 1⟩
    else readString opened fuel (c :: read) rest

/-! ## 3. Numbers -/

/-- The leading digits of a text, and the rest. -/
def spanDigits (cs : List Char) : List Char × List Char :=
  (cs.takeWhile Text.isAsciiDigit, cs.dropWhile Text.isAsciiDigit)

/-- The value of a list of digits. -/
def digitsValue (ds : List Char) : Nat := ofDigits (ds.map fun c => c.toNat - 48)

/-- The digits after a point, if a digit follows it. -/
def fraction : List Char → List Char × List Char
  | '.' :: rest => if (spanDigits rest).1.isEmpty then ([], '.' :: rest) else spanDigits rest
  | cs => ([], cs)

/-- The exponent after an `e` of either case, if a digit ends it. -/
def exponent? : List Char → Option (Int × List Char)
  | e :: rest =>
    if e = 'e' ∨ e = 'E' then
      let (negative, digits) := match rest with
        | '-' :: more => (true, more)
        | '+' :: more => (false, more)
        | more => (false, more)
      let (ds, rest') := spanDigits digits
      if ds.isEmpty then none
      else some (if negative then -(digitsValue ds : Int) else (digitsValue ds : Int), rest')
    else none
  | [] => none

/-- The number of which the sign and the whole digits are read: an integer, or with a fraction or an
    exponent a float. -/
def afterWhole (negative : Bool) (whole rest : List Char) : Except Refusal (Json × List Char) :=
  let (places, rest') := fraction rest
  match exponent? rest' with
  | some (power, rest'') =>
    .ok (.float (Binary64.ofDecimal negative (digitsValue (whole ++ places))
      (whole ++ places).length (power - places.length)), rest'')
  | none =>
    if places.isEmpty then
      if digitLimit < whole.length then .error ⟨.tooManyDigits whole.length, rest'.length⟩
      else
        let n : Int := digitsValue whole
        .ok (.int (if negative then -n else n), rest')
    else
      .ok (.float (Binary64.ofDecimal negative (digitsValue (whole ++ places))
        (whole ++ places).length (-places.length)), rest')

/-- The sign of a number, and the rest. -/
def splitSign : List Char → Bool × List Char
  | '-' :: rest => (true, rest)
  | rest => (false, rest)

/-- The whole digits of a number, which are none behind a zero, and the rest. -/
def splitWhole : List Char → List Char × List Char
  | '0' :: rest => (['0'], rest)
  | rest => spanDigits rest

/-- A number. -/
def readNumber (cs : List Char) : Except Refusal (Json × List Char) :=
  let (negative, body) := splitSign cs
  let (whole, rest) := splitWhole body
  if whole.isEmpty then .error ⟨.expectingValue, cs.length⟩ else afterWhole negative whole rest

/-! ## 4. Values -/

/-- The values that are spelled by a name. -/
def names : List (List Char × Json) :=
  [("null".toList, .null), ("true".toList, .bool true), ("false".toList, .bool false),
    ("NaN".toList, .float .nan), ("Infinity".toList, .float (.infinite false)),
    ("-Infinity".toList, .float (.infinite true))]

/-- A value that is spelled by a name. -/
def readName? (cs : List Char) : Option (Json × List Char) :=
  names.findSome? fun (name, value) => (Text.after? name cs).map (value, ·)

mutual

/-- The value at the start of the text. -/
def readValue : Nat → List Char → Except Refusal (Json × List Char)
  | 0, cs => .error ⟨.expectingValue, cs.length⟩
  | fuel + 1, cs =>
    match cs with
    | [] => .error ⟨.expectingValue, 0⟩
    | '"' :: rest =>
      match readString cs.length (rest.length + 1) [] rest with
      | .error r => .error r
      | .ok (s, rest') => .ok (.str s, rest')
    | '[' :: rest =>
      match skipSpace rest with
      | ']' :: rest' => .ok (.arr [], rest')
      | rest' => readItems fuel [] rest'
    | '\x7b' :: rest =>
      match skipSpace rest with
      | '\x7d' :: rest' => .ok (.obj [], rest')
      | rest' => readFields fuel [] rest'
    | _ =>
      match readName? cs with
      | some found => .ok found
      | none => readNumber cs

/-- The items from one on, up to the closing bracket; `read` holds those before, reversed. -/
def readItems : Nat → List Json → List Char → Except Refusal (Json × List Char)
  | 0, _, cs => .error ⟨.expectingValue, cs.length⟩
  | fuel + 1, read, cs =>
    match readValue fuel cs with
    | .error r => .error r
    | .ok (j, rest) =>
      match skipSpace rest with
      | ']' :: rest' => .ok (.arr (j :: read).reverse, rest')
      | ',' :: rest' => readItems fuel (j :: read) (skipSpace rest')
      | rest' => .error ⟨.expectingComma, rest'.length⟩

/-- The fields from one on, up to the closing brace; `read` holds those before. -/
def readFields : Nat → List (String × Json) → List Char → Except Refusal (Json × List Char)
  | 0, _, cs => .error ⟨.expectingValue, cs.length⟩
  | fuel + 1, read, cs =>
    match cs with
    | '"' :: rest =>
      match readString cs.length (rest.length + 1) [] rest with
      | .error r => .error r
      | .ok (key, rest₁) =>
        match skipSpace rest₁ with
        | ':' :: rest₂ =>
          match readValue fuel (skipSpace rest₂) with
          | .error r => .error r
          | .ok (j, rest₃) =>
            match skipSpace rest₃ with
            | '\x7d' :: rest₄ => .ok (.obj (set read key j), rest₄)
            | ',' :: rest₄ => readFields fuel (set read key j) (skipSpace rest₄)
            | rest₄ => .error ⟨.expectingComma, rest₄.length⟩
        | rest₂ => .error ⟨.expectingColon, rest₂.length⟩
    | _ => .error ⟨.expectingName, cs.length⟩

end

/-! ## 5. Texts -/

/-- One value with blanks around it. -/
def readText (cs : List Char) : Except Refusal Json :=
  match cs with
  | '\uFEFF' :: _ => .error ⟨.byteOrderMark, cs.length⟩
  | _ =>
    match readValue (2 * cs.length + 2) (skipSpace cs) with
    | .error r => .error r
    | .ok (j, rest) =>
      match skipSpace rest with
      | [] => .ok j
      | rest' => .error ⟨.extraData, rest'.length⟩

/-- The value that a text denotes. -/
def parse (text : String) : Except ReadError Json :=
  match readText text.toList with
  | .ok j => .ok j
  | .error r => .error (r.locate text.toList)

end StepRunner.Json
