import StepRunner.Step.Trigger
import StepRunner.Step.Quotation

/-!
# What a sentence acts on

* `objectPhrase?`: the words after the first trigger word, without filler at either end;
* `inputField`: the locator of the form field that a sentence speaks of;
* `dropdownField`: the words after `from`, or any native list;
* `scrollTarget`: one of four directions.
-/

namespace StepRunner.Step

open Text

/-! ## 1. Form fields -/

/-- A kind of form field: the spellings that name it anywhere, even inside a word, the words that
    name it on their own, and its locator. -/
structure FormField where
  spellings : List String
  words : List String
  locator : String

/-- The known fields, by priority. In a spelling a space stands for a non-empty run of blanks. -/
def formFields : List FormField :=
  [ ⟨["username", "user name", "login"], ["user"],
      "input[name*=\"user\" i], input[id*=\"user\" i], input[type=\"text\"]"⟩,
    ⟨["password"], ["pass"], "input[type=\"password\"]"⟩,
    ⟨["email", "e-mail"], ["mail"], "input[type=\"email\"], input[name*=\"email\" i]"⟩,
    ⟨["fullname", "full name"], ["name"], "input[name*=\"name\" i], input[id*=\"name\" i]"⟩,
    ⟨["phone", "mobile"], [], "input[type=\"tel\"], input[name*=\"phone\" i]"⟩,
    ⟨["address"], [], "input[name*=\"address\" i], textarea[name*=\"address\" i]"⟩,
    ⟨["search", "query"], [],
      "input[type=\"search\"], input[name=\"q\"], input[name*=\"search\" i]"⟩ ]

/-- The text speaks of the field. -/
def FormField.isNamedIn (f : FormField) (cs : List Char) : Bool :=
  f.spellings.any (fun s => (search (fun _ => afterKeyword? s.toList) cs).isSome)
    || hasWord f.words cs

/-- The locator of the field that the text speaks of; any field if it names none. -/
def inputField (cs : List Char) : String :=
  ((formFields.find? fun f => f.isNamedIn cs).map (·.locator)).getD "input"

/-! ## 2. Lists to choose from -/

/-- The text, at least one character and all on one line, up to the blanks at its end. -/
def lineToEnd? (read : List Char) : List Char → Option (List Char)
  | [] => if read.isEmpty then none else some read.reverse
  | c :: rest =>
    if !read.isEmpty && allBlank (c :: rest) then some read.reverse
    else if c = '\n' then none
    else lineToEnd? (c :: read) rest

/-- The words after `from` and an article, up to the end of the text. -/
def sourceHere? (cs : List Char) : Option (List Char) :=
  (afterKeyword? "from".toList cs).bind <| afterSomeBlanks? fun rest =>
    ((afterKeyword? "the".toList rest).bind (afterSomeBlanks? (lineToEnd? []))).orElse
      fun _ => lineToEnd? [] rest

/-- A space or a straight quote. -/
def isSpaceOrQuote (c : Char) : Bool := c == ' ' || c == '"' || c == '\''

/-- The list that the text chooses from; any native list if it names none. -/
def dropdownField (cs : List Char) : List Char :=
  if contains "dropdown".toList (lower cs) then "select".toList
  else match search (atWord sourceHere?) cs with
    | none => "select".toList
    | some source =>
      let field := dropRightWhile isSpaceOrQuote ((dropMarks source).dropWhile isSpaceOrQuote)
      if field.isEmpty then "select".toList else field

/-! ## 3. Directions -/

/-- The directions, by priority. -/
def directions : List String := ["top", "bottom", "up", "down"]

/-- The direction that the text names; down if it names none. -/
def scrollTarget (cs : List Char) : String :=
  (directions.find? fun d => hasWord [d] (lower cs)).getD "down"

/-! ## 4. Phrases -/

/-- Words before a phrase that are no part of it. -/
def leadingFillers : List String :=
  ["on", "at", "that", "the", "a", "an", "to", "for", "over", "onto", "if", "whether", "there is",
    "page contains", "page shows", "page displays", "page has"]

/-- What follows one filler and its blanks. -/
def afterFiller? (cs : List Char) : Option (List Char) :=
  leadingFillers.findSome? fun filler => (afterKeyword? filler.toList cs).bind afterBlanks?

/-- The text without fillers in front; at most `fuel` of them. -/
def dropLeadingFillers : Nat → List Char → List Char
  | 0, cs => cs
  | fuel + 1, cs =>
    match afterFiller? cs with
    | none => cs
    | some rest => dropLeadingFillers fuel rest

/-- Words after a phrase that are no part of it. -/
def trailingFillers : List String :=
  ["appears", "is displayed", "is visible", "is shown", "is present", "exists", "shows up",
    "on the page", "on the screen", "on page", "on screen"]

/-- Blanks and a trailing filler stand here, and nothing but blanks follows. -/
def atTrailingFiller (cs : List Char) : Bool :=
  match afterBlanks? cs with
  | none => false
  | some rest => trailingFillers.any fun filler => (afterKeyword? filler.toList rest).any allBlank

/-- The text without a filler at its end. -/
def dropTrailingFiller : List Char → List Char
  | [] => []
  | c :: rest => if atTrailingFiller (c :: rest) then [] else c :: dropTrailingFiller rest

/-- Tags that are a selector when they are a whole phrase. -/
def bareTags : List String :=
  ["a", "button", "input", "select", "textarea", "form", "div", "span", "img", "label", "li", "nav",
    "h1", "h2", "h3", "h4", "h5", "h6"]

/-- The phrase that is left of the words after a trigger word. -/
def phraseOf? (cs : List Char) : Option (List Char) :=
  let body := trim (dropMarks (trim cs))
  let phrase := trim (dropTrailingFiller (dropLeadingFillers body.length body))
  if phrase.isEmpty then none
  else if bareTags.contains (String.ofList (lower phrase)) then some (lower phrase)
  else some phrase

/-- The words after the first trigger word, without filler. -/
def objectPhrase? (cs : List Char) (words : List String) : Option (List Char) :=
  (afterFirstTrigger? words cs).bind phraseOf?

end StepRunner.Step
