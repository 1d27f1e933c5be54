import StepRunner.Text.CharTables

/-!
# Character classes

The classes and one-character maps that step texts are read with. Every class is defined on all of
Unicode; below `0x80` it is decided without a table.

* `isBlank`: white space; `isWord`: letters, digits, numerals and the underscore;
* `digitValue?`: the value of a decimal digit of any script;
* `fold`: the lower-case ASCII letter that a character stands for when case is ignored;
* `isPrintable`: characters that are shown as they are inside a quoted text.
-/

namespace StepRunner.Text

open Tables

/-! ## 1. Blanks, words, digits -/

/-- White space: the controls from tab to carriage return, the four information separators, the
    space, and the spaces and line separators above ASCII. -/
def isBlank (c : Char) : Bool :=
  let n := c.toNat
  (9 ≤ n && n ≤ 13) || (28 ≤ n && n ≤ 32) || n == 0x85 || n == 0xA0 || n == 0x1680
    || (0x2000 ≤ n && n ≤ 0x200A) || n == 0x2028 || n == 0x2029 || n == 0x202F || n == 0x205F
    || n == 0x3000

/-- A letter, a digit or an underscore of ASCII. -/
def isAsciiWord (c : Char) : Bool := c.isAlphanum || c == '_'

/-- Letters, digits and numerals of every script, and the underscore. -/
def isWord (c : Char) : Bool :=
  if c.toNat < 0x80 then isAsciiWord c else inRanges wordRanges c.toNat

/-- The value of a decimal digit of any script. -/
def digitValue? (c : Char) : Option Nat :=
  let n := c.toNat
  if n < 0x80 then
    if '0' ≤ c ∧ c ≤ '9' then some (n - 48) else none
  else
    (digitZeros.find? fun z => z ≤ n && n ≤ z + 9).map (n - ·)

/-- A decimal digit of any script. -/
def isDigit (c : Char) : Bool := (digitValue? c).isSome

/-- A decimal digit of ASCII. -/
def isAsciiDigit (c : Char) : Bool := '0' ≤ c && c ≤ '9'

/-! ## 2. Case -/

/-- The character that `c` stands for when case is ignored against ASCII patterns. Four characters
    above ASCII fold to a letter: the dotted capital i and the dotless i, the long s and the
    Kelvin sign. -/
def fold (c : Char) : Char :=
  if 'A' ≤ c ∧ c ≤ 'Z' then Char.ofNat (c.toNat + 32)
  else if c = '\u0130' ∨ c = '\u0131' then 'i'
  else if c = '\u017F' then 's'
  else if c = '\u212A' then 'k'
  else c

/-- A character that folds to a letter of ASCII. -/
def foldsToLetter (c : Char) : Bool := 'a' ≤ fold c && fold c ≤ 'z'

/-- A character that folds to a letter or digit of ASCII. -/
def foldsToAlphanum (c : Char) : Bool := foldsToLetter c || isAsciiDigit c

/-- The one-character lower-case form. -/
def lowerChar (c : Char) : Char :=
  let n := c.toNat
  if n < 0x80 then
    if 'A' ≤ c ∧ c ≤ 'Z' then Char.ofNat (n + 32) else c
  else
    match lowerRuns.findSome? (·.image? n) with
    | some m => Char.ofNat m
    | none => c

/-! ## 3. What a quoted text shows -/

/-- Characters that a quoted text shows as they are; the others are escaped. -/
def isPrintable (c : Char) : Bool :=
  let n := c.toNat
  if n < 0x80 then 32 ≤ n && n < 127 else !inRanges unprintableRanges n

end StepRunner.Text
