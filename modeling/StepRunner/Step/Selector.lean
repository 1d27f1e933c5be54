import StepRunner.Text.Scan

/-!
# Selectors in a sentence

`selector?` finds a CSS selector that stands in a sentence. Four shapes are tried in order, each
over the whole text: `#name` and `.name` after a blank or at the start, `[data-…="…"]`, and any
bracketed text.
-/

namespace StepRunner.Step

open Text

/-- A letter of ASCII or an underscore: the first character of a name. -/
def isNameStart (c : Char) : Bool := c.isAlpha || c == '_'

/-- A further character of a name. -/
def isNameChar (c : Char) : Bool := isWord c || c == '-'

/-- The name with its mark in front, at the start of the text or after a blank. -/
def markedName? (mark : Char) (previous : Option Char) : List Char → Option (List Char)
  | m :: c :: rest =>
    if m = mark ∧ previous.all isBlank ∧ isNameStart c then
      some (m :: c :: rest.takeWhile isNameChar)
    else none
  | _ => none

/-- What follows the first straight quote on the line that a closing bracket follows. -/
def afterQuotedBracket? : List Char → Option (List Char)
  | '"' :: ']' :: rest => some rest
  | '\'' :: ']' :: rest => some rest
  | [] => none
  | c :: rest => if c = '\n' then none else afterQuotedBracket? rest

/-- The `[data-…="…"]` that starts here. -/
def dataAttribute? (cs : List Char) : Option (List Char) :=
  match after? "[data-".toList cs with
  | none => none
  | some rest =>
    if (rest.takeWhile isNameChar).isEmpty then none
    else match rest.dropWhile isNameChar with
      | '=' :: '"' :: body => (afterQuotedBracket? body).map (readUpTo cs)
      | '=' :: '\'' :: body => (afterQuotedBracket? body).map (readUpTo cs)
      | _ => none

/-- The non-empty bracketed text that starts here. -/
def bracketed? : List Char → Option (List Char)
  | '[' :: rest =>
    let body := rest.takeWhile (· != ']')
    match rest.dropWhile (· != ']') with
    | ']' :: _ => if body.isEmpty then none else some ('[' :: body ++ [']'])
    | _ => none
  | _ => none

/-- The first selector of the text. -/
def selector? (cs : List Char) : Option (List Char) :=
  (search (markedName? '#') cs).orElse fun _ =>
  (search (markedName? '.') cs).orElse fun _ =>
  (search (fun _ => dataAttribute?) cs).orElse fun _ =>
  search (fun _ => bracketed?) cs

end StepRunner.Step
