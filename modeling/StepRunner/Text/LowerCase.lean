import StepRunner.Text.Basic

/-!
# Lower case

`lower` maps a text to lower case with the full mapping: the dotted capital i becomes an i and a
combining dot, and a capital sigma takes its final form at the end of a word, where "end of a word"
looks past the characters that carry no case of their own. All other characters map one to one by
`lowerChar`.
-/

namespace StepRunner.Text

open Tables

/-- Passed over when a capital sigma looks for its neighbours. -/
def isCaseIgnorable (c : Char) : Bool := inRanges caseIgnorableRanges c.toNat

/-- Has a case, and is not passed over. -/
def isCased (c : Char) : Bool := inRanges casedRanges c.toNat

/-- The first character that is not passed over has a case. -/
def facesCased (cs : List Char) : Bool :=
  match cs.dropWhile isCaseIgnorable with
  | [] => false
  | c :: _ => isCased c

/-- The lower-case form of `c` between the reversed text before it and the text after it. -/
def lowerBetween (before : List Char) (c : Char) (following : List Char) : List Char :=
  if c = '\u03A3' then
    if facesCased before && !facesCased following then ['\u03C2'] else ['\u03C3']
  else if c = '\u0130' then ['i', '\u0307']
  else [lowerChar c]

/-- Lower case of the rest of a text, given the reversed text before it. -/
def lowerFrom (before : List Char) : List Char → List Char
  | [] => []
  | c :: rest => lowerBetween before c rest ++ lowerFrom (c :: before) rest

/-- The text in lower case. -/
def lower (cs : List Char) : List Char := lowerFrom [] cs

/-- The string in lower case. -/
def toLower (s : String) : String := String.ofList (lower s.toList)

end StepRunner.Text
