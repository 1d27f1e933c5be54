import StepRunner.Text.Scan

/-!
# Locators

A target phrase becomes a list of locators, the most specific first: the phrase itself where it is a
selector, the usual search boxes, elements with the label as text, submit controls, attributes that
contain the phrase or its label, and last the text of the phrase.

* `isSelector`: the phrase is a CSS selector as it stands;
* `label`: the phrase without the names of controls;
* `locators`: the candidates of a phrase, each once.
-/

namespace StepRunner

open Text

namespace Locator

/-! ## 1. Selectors and labels -/

/-- Tags with which a selector may start. -/
def tags : List String :=
  ["a", "button", "input", "select", "textarea", "form", "div", "span", "img", "label", "li", "ul",
    "nav", "header", "footer", "section", "table", "tr", "td", "h1", "h2", "h3", "h4", "h5", "h6",
    "p"]

/-- A lower-case letter of ASCII. -/
def isTagStart (c : Char) : Bool := 'a' ≤ c && c ≤ 'z'

/-- A lower-case letter or digit of ASCII. -/
def isTagChar (c : Char) : Bool := isTagStart c || isAsciiDigit c

/-- A character that may follow the tag of a selector. -/
def endsTag (c : Char) : Bool :=
  c == '#' || c == '.' || c == '[' || c == ':' || c == '>' || c == '+' || c == '~' || c == ','

/-- A known tag, alone or with the rest of a selector right behind it. -/
def startsWithTag (cs : List Char) : Bool :=
  tags.contains (String.ofList (cs.takeWhile isTagChar)) && (cs.dropWhile isTagChar).head?.all endsTag

/-- The phrase is a CSS selector: it starts with a mark of one, or with a tag. -/
def isSelector (phrase : List Char) : Bool :=
  match phrase with
  | [] => false
  | c :: _ => c == '#' || c == '.' || c == '[' || (isTagStart c && startsWithTag phrase)

/-- Names of controls, which are no part of a label. -/
def controlWords : List String :=
  ["button", "btn", "link", "field", "input", "box", "icon", "tab", "menu item", "option"]

/-- What follows the name of a control that starts here. -/
def afterControlWord? (previous : Option Char) (cs : List Char) : Option (List Char) :=
  if atWordStart previous then
    controlWords.findSome? fun w => (afterLiteral? w.toList cs).filter atWordEnd
  else none

/-- The text with a space for every name of a control; `skip` characters belong to the last one. -/
def blankControlsFrom (previous : Option Char) (skip : Nat) : List Char → List Char
  | [] => []
  | c :: rest =>
    match skip with
    | more + 1 => blankControlsFrom (some c) more rest
    | 0 =>
      match afterControlWord? previous (c :: rest) with
      | some tail => ' ' :: blankControlsFrom (some c) (rest.length - tail.length) rest
      | none => c :: blankControlsFrom (some c) 0 rest

/-- The text without an article and the blanks around it at its start. -/
def dropArticle (cs : List Char) : List Char :=
  (["the", "a", "an"].findSome? fun article =>
    (afterLiteral? article.toList (trimLeft cs)).bind afterBlanks?).getD cs

/-- The visible label that a phrase speaks of. -/
def label (phrase : List Char) : List Char :=
  squeeze (dropArticle (blankControlsFrom none 0 phrase))

/-! ## 2. Candidates -/

/-- One character between double quotes. -/
def escapeChar (c : Char) : List Char :=
  if c = '\\' ∨ c = '"' then ['\\', c] else [c]

/-- A text between double quotes, with the quotes and with backslashes before the characters that
    would end it. -/
def literal (cs : List Char) : List Char := '"' :: cs.flatMap escapeChar ++ ['"']

/-- A text that contains one of these speaks of submitting; a space stands for blanks. -/
def submitWords : List String :=
  ["button", "submit", "search", "log in", "login", "sign in", "signin", "sign up", "signup",
    "register"]

/-- The usual search boxes. -/
def searchBoxes : List String :=
  ["input[name=\"q\"]", "input[name=\"search\"]", "input[type=\"search\"]",
    "input[placeholder*=\"search\" i]", "[aria-label*=\"search\" i]", "#search", ".search-input",
    "[data-testid=\"search\"]"]

/-- The usual submit controls. -/
def submitControls : List String := ["button[type=\"submit\"]", "input[type=\"submit\"]"]

/-- The attributes that may hold a phrase. -/
def attributes : List String :=
  ["data-testid", "data-test", "id", "name", "placeholder", "aria-label", "title", "value", "alt"]

/-- The element with an attribute that contains a text. -/
def byAttribute (tag : String) (text : List Char) (key : String) : List Char :=
  tag.toList ++ '[' :: key.toList ++ "*=".toList ++ literal text ++ " i]".toList

/-- The elements of one kind that show a text. -/
def byText (kind : String) (text : List Char) : List Char :=
  kind.toList ++ ":has-text(".toList ++ literal text ++ [')']

/-- The element whose whole text is the phrase. -/
def exactText (phrase : List Char) : List Char := "text=".toList ++ literal phrase

/-- The label of a phrase, or the phrase where no label is left. -/
def labelOrPhrase (phrase : List Char) : List Char :=
  if (label phrase).isEmpty then phrase else label phrase

/-- The candidates of a trimmed phrase, repetitions included. -/
def candidates (phrase : List Char) : List (List Char) :=
  let label := labelOrPhrase phrase
  let lowered := lower phrase
  (if isSelector phrase then [phrase] else [])
  ++ (if contains "search".toList lowered then searchBoxes.map String.toList else [])
  ++ [byText "button" label, byText "a" label, byText "[role=\"button\"]" label]
  ++ (if hasWord submitWords lowered then
        submitControls.map String.toList ++ [byAttribute "input" label "value"]
      else [])
  ++ attributes.map (byAttribute "" phrase)
  ++ attributes.map (byAttribute "" label)
  ++ [exactText phrase]

/-- The items in the order of their first occurrence, without the empty one. -/
def eachOnce (seen : List (List Char)) : List (List Char) → List (List Char)
  | [] => []
  | item :: rest =>
    if item.isEmpty || seen.contains item then eachOnce seen rest
    else item :: eachOnce (item :: seen) rest

end Locator

/-- The locators of a phrase, the most specific first; none for a blank phrase. -/
def locators (phrase : String) : List String :=
  let cs := trim phrase.toList
  if cs.isEmpty then [] else (Locator.eachOnce [] (Locator.candidates cs)).map String.ofList

end StepRunner
