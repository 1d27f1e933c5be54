import StepRunner.Step.Quotation

/-!
# Addresses in a sentence

`address?` finds what a sentence navigates to: the first URL with a scheme, else the first domain
(which gets `https://` in front), else the first absolute path. Closing marks at the end of a
sentence are no part of it.
-/

namespace StepRunner.Step

open Text

/-! ## 1. URLs -/

/-- A character that a URL may hold. -/
def isUrlChar (c : Char) : Bool :=
  !(isBlank c || c == '\'' || c == '"' || c == '<' || c == '>')

/-- A non-empty text as it is. -/
def nonEmpty? (cs : List Char) : Option (List Char) := if cs.isEmpty then none else some cs

/-- What follows `http://` or `https://`. -/
def afterWebScheme? (cs : List Char) : Option (List Char) :=
  (afterLiteral? "https://".toList cs).orElse fun _ => afterLiteral? "http://".toList cs

/-- The URL that starts here. -/
def urlHere? (cs : List Char) : Option (List Char) :=
  (afterWebScheme? cs).bind fun rest =>
    (nonEmpty? (rest.takeWhile isUrlChar)).map fun body =>
      cs.take (cs.length - rest.length) ++ body

/-! ## 2. Domains -/

/-- A character inside a domain label. -/
def isLabelChar (c : Char) : Bool := foldsToAlphanum c || c == '-'

/-- What follows one domain label and its point: the label starts and ends with a letter or digit. -/
def afterLabel? (cs : List Char) : Option (List Char) :=
  let label := cs.takeWhile isLabelChar
  match cs.drop label.length with
  | '.' :: rest =>
    if label.head?.any foldsToAlphanum && label.getLast?.any foldsToAlphanum then some rest
    else none
  | _ => none

/-- What follows a final label of at least two letters. -/
def afterTopLabel? (cs : List Char) : Option (List Char) :=
  if 2 ≤ (cs.takeWhile foldsToLetter).length then some (cs.dropWhile foldsToLetter) else none

/-- What follows the longest domain at the start of the text, of which `read` labels were read. -/
def afterDomain? (fuel : Nat) (begun : Bool) (cs : List Char) : Option (List Char) :=
  let shorter := if begun then afterTopLabel? cs else none
  match fuel with
  | 0 => shorter
  | fuel + 1 => ((afterLabel? cs).bind (afterDomain? fuel true)).orElse fun _ => shorter

/-- What follows a port, if one stands here. -/
def skipPort : List Char → List Char
  | ':' :: rest => if (rest.takeWhile isDigit).isEmpty then ':' :: rest else rest.dropWhile isDigit
  | cs => cs

/-- What follows a path, if one stands here. -/
def skipUrlPath : List Char → List Char
  | '/' :: rest => rest.dropWhile isUrlChar
  | cs => cs

/-- A domain may not continue an address, a word or a number. -/
def atDomainStart (previous : Option Char) : Bool :=
  !(previous.any fun c => c == '@' || isWord c || c == '.' || c == '-')

/-- The domain that starts here, with its port and path. -/
def domainHere? (previous : Option Char) (cs : List Char) : Option (List Char) :=
  if atDomainStart previous then
    (afterDomain? cs.length false cs).map fun rest => readUpTo cs (skipUrlPath (skipPort rest))
  else none

/-! ## 3. Paths -/

/-- A character of a path. -/
def isPathChar (c : Char) : Bool :=
  isWord c || c == '-' || c == '.' || c == '/' || c == '?' || c == '=' || c == '&' || c == '%'
    || c == '#'

/-- The path that starts here, at the start of the text or after a blank. -/
def pathHere? (previous : Option Char) : List Char → Option (List Char)
  | '/' :: rest =>
    if previous.all isBlank then some ('/' :: rest.takeWhile isPathChar) else none
  | _ => none

/-! ## 4. The address -/

/-- The first URL, domain or path of the text. -/
def address? (cs : List Char) : Option (List Char) :=
  ((search (fun _ => urlHere?) cs).map dropMarks).orElse fun _ =>
  ((search domainHere? cs).map fun domain => "https://".toList ++ dropMarks domain).orElse fun _ =>
  (search pathHere? cs).map dropMarks

end StepRunner.Step
