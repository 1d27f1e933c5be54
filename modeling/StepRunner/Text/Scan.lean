import StepRunner.Text.LowerCase

/-!
# Reading shapes out of a text

The pieces that the shapes of a step (keywords, quotes, URLs, selectors, amounts) are put together
from. A reader takes the text at a place and answers the text after what it read, or nothing.

* `afterLiteral?`, `afterKeyword?`: a fixed spelling, letters compared without case; in a keyword
  a space stands for any non-empty run of blanks;
* `afterBlanks?`, `afterSomeBlanks?`: a run of blanks taken whole, or as many as leave a success;
* `search`: the first place of the text, from the left, at which a reader succeeds; the reader
  also sees the character before the place;
* `hasWord`, `hasLiteral`: a spelling stands somewhere, alone or inside anything.
-/

namespace StepRunner.Text

/-! ## 1. Word boundaries -/

/-- The place after `previous` may begin a word. -/
def atWordStart (previous : Option Char) : Bool := !(previous.any isWord)

/-- The text ahead does not continue a word. -/
def atWordEnd : List Char → Bool
  | [] => true
  | c :: _ => !isWord c

/-! ## 2. Spellings -/

/-- What follows `spelling` (in lower case), letters compared without case. -/
def afterLiteral? : List Char → List Char → Option (List Char)
  | [], cs => some cs
  | _ :: _, [] => none
  | s :: spelling, c :: cs => if fold c = s then afterLiteral? spelling cs else none

/-- What follows a non-empty run of blanks, taken whole. -/
def afterBlanks? : List Char → Option (List Char)
  | [] => none
  | c :: cs => if isBlank c then some (cs.dropWhile isBlank) else none

/-- What follows `keyword`, where a space stands for a non-empty run of blanks. -/
def afterKeyword? : List Char → List Char → Option (List Char)
  | [], cs => some cs
  | s :: keyword, cs =>
    if s = ' ' then (afterBlanks? cs).bind (afterKeyword? keyword)
    else match cs with
      | [] => none
      | c :: cs => if fold c = s then afterKeyword? keyword cs else none

/-- What follows the first of several keywords that stands here and ends a word. -/
def afterWordOf? (keywords : List String) (cs : List Char) : Option (List Char) :=
  keywords.findSome? fun k => (afterKeyword? k.toList cs).filter atWordEnd

/-- Reads after a non-empty run of blanks, of which as many are taken as leave a success. -/
def afterSomeBlanks? {α : Type} (read : List Char → Option α) : List Char → Option α
  | [] => none
  | c :: cs => if isBlank c then (afterSomeBlanks? read cs).orElse fun _ => read cs else none

/-! ## 3. The first place -/

/-- The first place at which `read` succeeds, given the character before the text. -/
def searchFrom {α : Type} (read : Option Char → List Char → Option α) :
    Option Char → List Char → Option α
  | previous, [] => read previous []
  | previous, c :: cs =>
    match read previous (c :: cs) with
    | some a => some a
    | none => searchFrom read (some c) cs

/-- The first place of the text at which `read` succeeds. -/
def search {α : Type} (read : Option Char → List Char → Option α) (cs : List Char) : Option α :=
  searchFrom read none cs

/-- A reader that succeeds only where a word may begin. -/
def atWord {α : Type} (read : List Char → Option α) (previous : Option Char) (cs : List Char) :
    Option α :=
  if atWordStart previous then read cs else none

/-- `spelling` stands somewhere, inside anything. -/
def hasLiteral (spelling : String) (cs : List Char) : Bool :=
  (search (fun _ => afterLiteral? spelling.toList) cs).isSome

/-- One of the keywords stands somewhere as a word of its own. -/
def hasWord (keywords : List String) (cs : List Char) : Bool :=
  (search (atWord (afterWordOf? keywords)) cs).isSome

/-- What was read when `rest` is left of `cs`. -/
def readUpTo (cs rest : List Char) : List Char := cs.take (cs.length - rest.length)

/-! ## 4. How much is left -/

theorem length_dropWhile_le {p : Char → Bool} (cs : List Char) :
    (cs.dropWhile p).length ≤ cs.length :=
  (List.dropWhile_suffix p).length_le

theorem length_afterBlanks? {cs rest : List Char} (h : afterBlanks? cs = some rest) :
    rest.length < cs.length := by
  cases cs with
  | nil => simp [afterBlanks?] at h
  | cons c cs =>
    simp only [afterBlanks?, Option.ite_none_right_eq_some, Option.some.injEq] at h
    obtain ⟨_, rfl⟩ := h
    have := length_dropWhile_le (p := isBlank) cs
    simp only [List.length_cons]
    omega

theorem length_afterLiteral? : ∀ {spelling cs rest : List Char},
    afterLiteral? spelling cs = some rest → rest.length + spelling.length = cs.length
  | [], cs, rest, h => by simp_all [afterLiteral?]
  | s :: spelling, [], rest, h => by simp [afterLiteral?] at h
  | s :: spelling, c :: cs, rest, h => by
    unfold afterLiteral? at h
    split at h
    · have := length_afterLiteral? h
      simp only [List.length_cons]
      omega
    · simp at h

theorem length_afterKeyword? : ∀ {keyword cs rest : List Char},
    afterKeyword? keyword cs = some rest → rest.length + keyword.length ≤ cs.length
  | [], cs, rest, h => by simp_all [afterKeyword?]
  | s :: keyword, cs, rest, h => by
    unfold afterKeyword? at h
    split at h
    · rw [Option.bind_eq_some_iff] at h
      obtain ⟨mid, hm, hr⟩ := h
      have h₁ := length_afterBlanks? hm
      have h₂ := length_afterKeyword? hr
      simp only [List.length_cons]
      omega
    · cases cs with
      | nil => simp at h
      | cons c cs =>
        simp only at h
        split at h
        · have := length_afterKeyword? h
          simp only [List.length_cons]
          omega
        · simp at h

end StepRunner.Text
