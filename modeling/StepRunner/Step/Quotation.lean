import StepRunner.Text.Scan

/-!
# Quoted texts and values

A quotation starts with a straight or an opening curly quote that no letter, digit or underscore
precedes, and ends with a straight or closing curly quote that none follows; so an apostrophe inside
a word is no quote.

* `quotedText?`: the first quotation, if it is not blank;
* `value?`: the value that a sentence enters or chooses: a quotation after `with` or `value`, else
  the first quotation, else the words between the verb and `into`, `in`, `on` or `from`, else the
  last word after `with`.
-/

namespace StepRunner.Step

open Text

/-! ## 1. Quotations -/

/-- Starts a quotation. -/
def isOpeningQuote (c : Char) : Bool := c == '"' || c == '\'' || c == '“' || c == '‘'

/-- Ends a quotation. -/
def isClosingQuote (c : Char) : Bool := c == '"' || c == '\'' || c == '”' || c == '’'

/-- A straight quote. -/
def isStraightQuote (c : Char) : Bool := c == '"' || c == '\''

/-- The text up to the first closing quote on the line that no word follows, after at least one
    character. `read` holds what was read, reversed. -/
def quotationBody? (read : List Char) : List Char → Option (List Char)
  | [] => none
  | c :: rest =>
    if !read.isEmpty && isClosingQuote c && atWordEnd rest then some read.reverse
    else if c = '\n' then none
    else quotationBody? (c :: read) rest

/-- The body of the quotation that starts here. -/
def quotationHere? (previous : Option Char) : List Char → Option (List Char)
  | [] => none
  | c :: rest =>
    if isOpeningQuote c && atWordStart previous then quotationBody? [] rest else none

/-- The first quotation of the text; nothing if it is blank. -/
def quotedText? (cs : List Char) : Option (List Char) :=
  (search quotationHere? cs).filter fun body => !allBlank body

/-! ## 2. Values -/

/-- The text, possibly empty, up to the first straight quote on the line that no word follows. -/
def valueBody? (read : List Char) : List Char → Option (List Char)
  | [] => none
  | c :: rest =>
    if isStraightQuote c && atWordEnd rest then some read.reverse
    else if c = '\n' then none
    else valueBody? (c :: read) rest

/-- The straight quotation after a keyword and blanks. -/
def valueAfter? (keyword : String) (cs : List Char) : Option (List Char) :=
  match (afterKeyword? keyword.toList cs).bind afterBlanks? with
  | some (c :: rest) => if isStraightQuote c then valueBody? [] rest else none
  | _ => none

/-- The verbs that a bare value may follow. -/
def enteringVerbs : List String :=
  ["type", "enter", "input", "fill in", "fill", "select", "choose", "pick"]

/-- The words that end a bare value. -/
def placeWords : List String := ["into", "in", "on", "from"]

/-- Blanks, one of the place words and a blank stand here. -/
def atPlaceWord (cs : List Char) : Bool :=
  match afterBlanks? cs with
  | none => false
  | some rest => placeWords.any fun w =>
      ((afterLiteral? w.toList rest).bind afterBlanks?).isSome

/-- The text, at least one character, up to the first place word on the line. -/
def bareBody? (read : List Char) : List Char → Option (List Char)
  | [] => none
  | c :: rest =>
    if !read.isEmpty && atPlaceWord (c :: rest) then some read.reverse
    else if c = '\n' then none
    else bareBody? (c :: read) rest

/-- The words between the verb at the start of the text and a place word. -/
def valueBeforePlace? (cs : List Char) : Option (List Char) :=
  enteringVerbs.findSome? fun verb =>
    (afterKeyword? verb.toList (trimLeft cs)).bind (afterSomeBlanks? (bareBody? []))

/-- The word after `with`, if it is the last one. -/
def lastWordAfterWith? (cs : List Char) : Option (List Char) :=
  ((afterKeyword? "with".toList cs).bind afterBlanks?).bind fun rest =>
    let word := rest.takeWhile (!isBlank ·)
    if !word.isEmpty && allBlank (rest.dropWhile (!isBlank ·)) then some word else none

/-- Marks that may follow a value or a phrase and are no part of it. -/
def isClosingMark (c : Char) : Bool :=
  c == '.' || c == ',' || c == ';' || c == ':' || c == '!' || c == '?' || c == ')'

/-- The text without closing marks at its end. -/
def dropMarks (cs : List Char) : List Char := dropRightWhile isClosingMark cs

/-- The value without quotes that a sentence names. -/
def bareValue? (cs : List Char) : Option (List Char) :=
  ((valueBeforePlace? cs).orElse fun _ => search (atWord lastWordAfterWith?) cs).map
    fun value => dropMarks (trim value)

/-- The value that a sentence enters or chooses. -/
def value? (cs : List Char) : Option (List Char) :=
  (search (atWord (valueAfter? "with")) cs).orElse fun _ =>
  (search (atWord (valueAfter? "value")) cs).orElse fun _ =>
  (quotedText? cs).orElse fun _ => bareValue? cs

/-- The text with the first occurrence of a value made a space; unchanged for an empty value. -/
def without (cs : List Char) (value : Option (List Char)) : List Char :=
  match value with
  | none => cs
  | some [] => cs
  | some v => replaceFirst v [' '] cs

end StepRunner.Step
