import StepRunner.Text.Chars

/-!
# Texts as lists of characters

Step texts are read character by character, so the functions here work on `List Char`; a `String`
stands at the library's surface and `String.toList`, `String.ofList` lead in and out.

* trimming: `trimLeft`, `trimRight`, `trim`, and `dropRightWhile` for any class;
* `words` and `joinWith`: the maximal runs without blanks, and a list put together again;
* `contains`, `replaceFirst`, `replaceAll`: verbatim occurrences.
-/

namespace StepRunner.Text

/-! ## 1. Trimming -/

/-- The text without its longest tail of characters in `p`. -/
def dropRightWhile (p : Char → Bool) (cs : List Char) : List Char :=
  (cs.reverse.dropWhile p).reverse

/-- The text without leading blanks. -/
def trimLeft (cs : List Char) : List Char := cs.dropWhile isBlank

/-- The text without trailing blanks. -/
def trimRight (cs : List Char) : List Char := dropRightWhile isBlank cs

/-- The text without leading and trailing blanks. -/
def trim (cs : List Char) : List Char := trimRight (trimLeft cs)

/-- Nothing but blanks. -/
def allBlank (cs : List Char) : Bool := cs.all isBlank

/-! ## 2. Words -/

/-- Splits before every blank: the run up to it, and what the remaining text splits into. -/
def wordsFrom (run : List Char) : List Char → List (List Char)
  | [] => if run.isEmpty then [] else [run.reverse]
  | c :: rest =>
    if isBlank c then
      if run.isEmpty then wordsFrom [] rest else run.reverse :: wordsFrom [] rest
    else wordsFrom (c :: run) rest

/-- The maximal runs without blanks, in order. -/
def words (cs : List Char) : List (List Char) := wordsFrom [] cs

/-- The texts one after the other, with `sep` between neighbours. -/
def joinWith (sep : List Char) : List (List Char) → List Char
  | [] => []
  | [w] => w
  | w :: rest => w ++ sep ++ joinWith sep rest

/-- The text with every run of blanks made one space, and none at its ends. -/
def squeeze (cs : List Char) : List Char := joinWith [' '] (words cs)

/-- The lines between line feeds. -/
def splitLinesFrom (line : List Char) : List Char → List (List Char)
  | [] => [line.reverse]
  | c :: rest =>
    if c = '\n' then line.reverse :: splitLinesFrom [] rest else splitLinesFrom (c :: line) rest

/-- The lines between line feeds. -/
def splitLines (cs : List Char) : List (List Char) := splitLinesFrom [] cs

/-- The parts between occurrences of one character. -/
def splitOn (sep : Char) : List Char → List (List Char)
  | [] => [[]]
  | c :: rest =>
    if c = sep then [] :: splitOn sep rest
    else match splitOn sep rest with
      | [] => [[c]]
      | part :: parts => (c :: part) :: parts

/-! ## 3. Occurrences -/

/-- What follows `pre` at the start of the text. -/
def after? : List Char → List Char → Option (List Char)
  | [], cs => some cs
  | _ :: _, [] => none
  | p :: pre, c :: cs => if p = c then after? pre cs else none

/-- `needle` stands somewhere in the text. -/
def contains (needle : List Char) : List Char → Bool
  | [] => needle.isEmpty
  | c :: rest => (after? needle (c :: rest)).isSome || contains needle rest

/-- The text with the first occurrence of `old` replaced. -/
def replaceFirst (old new : List Char) : List Char → List Char
  | [] => if old.isEmpty then new else []
  | c :: rest =>
    match after? old (c :: rest) with
    | some tail => new ++ tail
    | none => c :: replaceFirst old new rest

/-- The text with every occurrence of one character replaced by a text. -/
def replaceChar (old : Char) (new : List Char) (cs : List Char) : List Char :=
  cs.flatMap fun c => if c = old then new else [c]

/-! ## 4. On strings -/

/-- The string without leading and trailing blanks. -/
def strip (s : String) : String := String.ofList (trim s.toList)

/-- The string without trailing blanks. -/
def stripRight (s : String) : String := String.ofList (trimRight s.toList)

/-- A string that is empty or blank. -/
def isBlankText (s : String) : Bool := allBlank s.toList

end StepRunner.Text
