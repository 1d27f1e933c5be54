import StepRunner.Proofs.Locator.Sequence

/-!
# Phrases inside locators

Most candidates put the phrase or its label between double quotes. Whatever the text says, it stays there: who reads the
candidate from the opening quote on, with a backslash in front of a character that is meant as it stands, reads the text
and stops at the last quote of the candidate.

* `literalBody?`: what a literal says; `literalBody?_append`: it is the text that was put in;
* `insertions`: which texts a phrase puts where, and `mem_candidates_iff`: what else its candidates are;
* `literals_contained`: no text of a phrase breaks out of its literal.
-/

namespace StepRunner

open Text

namespace Locator

variable {cs text other after item : List Char}

/-! ## 1. Reading a literal -/

/-- What a literal says, read behind its opening quote, and what follows its closing quote. A backslash stands for
    the one character behind it. -/
def literalBody? : List Char → Option (List Char × List Char)
  | [] => none
  | '"' :: rest => some ([], rest)
  | '\\' :: rest =>
    match rest with
    | [] => none
    | c :: rest => (literalBody? rest).map (Prod.map (c :: ·) id)
  | c :: rest => (literalBody? rest).map (Prod.map (c :: ·) id)

/-- **A literal says** the text that was put in. -/
theorem literalBody?_append (text after : List Char) :
    literalBody? (text.flatMap escapeChar ++ '"' :: after) = some (text, after) := by
  induction text with
  | nil => rfl
  | cons c text ih =>
      rw [List.flatMap_cons, List.append_assoc, escapeChar]
      split
      · next hescaped =>
          show (literalBody? (text.flatMap escapeChar ++ '"' :: after)).map (Prod.map (c :: ·) id) = _
          rw [ih]
          rfl
      · next hplain =>
          rw [not_or] at hplain
          rw [List.singleton_append, literalBody?.eq_5 _ _ hplain.2 hplain.1, ih]
          rfl

theorem literal_inj (h : literal text = literal other) : text = other := by
  have hbody : text.flatMap escapeChar ++ ['"'] = other.flatMap escapeChar ++ ['"'] := (List.cons.inj h).2
  have hread := literalBody?_append other []
  rw [← hbody, literalBody?_append] at hread
  exact (Prod.mk.inj (Option.some.inj hread)).1

theorem exactText_inj (h : exactText text = exactText other) : text = other :=
  literal_inj (List.append_cancel_left h)

/-! ## 2. Where texts are put -/

/-- What stands around a literal. -/
structure Frame where
  opening : List Char
  closing : List Char

/-- The frame with a text in it. -/
def Frame.fill (f : Frame) (text : List Char) : List Char := f.opening ++ literal text ++ f.closing

/-- Between its opening and its closing, the candidate holds a literal that says the text and ends at the last quote of
    the candidate. -/
def Frame.Holds (f : Frame) (text candidate : List Char) : Prop :=
  '"' ∉ f.closing ∧ ∃ body, candidate = f.opening ++ '"' :: (body ++ '"' :: f.closing) ∧
    literalBody? (body ++ '"' :: f.closing) = some (text, f.closing)

/-- The elements of one kind that show a text. -/
def showing (kind : String) : Frame := ⟨kind.toList ++ ":has-text(".toList, [')']⟩

/-- The elements with an attribute that contains a text. -/
def having (tag key : String) : Frame := ⟨tag.toList ++ '[' :: key.toList ++ "*=".toList, " i]".toList⟩

/-- The element whose whole text is the phrase. -/
def wholeText : Frame := ⟨"text=".toList, []⟩

/-- The texts that the candidates of a phrase put between quotes, each with its frame. -/
def insertions (cs : List Char) : List (Frame × List Char) :=
  [(showing "button", labelOrPhrase cs), (showing "a", labelOrPhrase cs),
    (showing "[role=\"button\"]", labelOrPhrase cs)]
  ++ (if hasWord submitWords (lower cs) then [(having "input" "value", labelOrPhrase cs)] else [])
  ++ attributes.map (fun key => (having "" key, cs))
  ++ attributes.map (fun key => (having "" key, labelOrPhrase cs))
  ++ [(wholeText, cs)]

/-- The candidates of a phrase without a literal of its own: the phrase itself where it is a selector, and those that
    are the same for all phrases. -/
def plain (cs : List Char) : List (List Char) :=
  (if isSelector cs then [cs] else [])
  ++ (if contains "search".toList (lower cs) then searchBoxes.map String.toList else [])
  ++ (if hasWord submitWords (lower cs) then submitControls.map String.toList else [])

/-- The texts in their frames, as they stand among the candidates. -/
theorem map_fill_insertions (cs : List Char) : (insertions cs).map (fun i => i.1.fill i.2) =
    [byText "button" (labelOrPhrase cs), byText "a" (labelOrPhrase cs), byText "[role=\"button\"]" (labelOrPhrase cs)]
    ++ (if hasWord submitWords (lower cs) then [byAttribute "input" (labelOrPhrase cs) "value"] else [])
    ++ attributes.map (byAttribute "" cs) ++ attributes.map (byAttribute "" (labelOrPhrase cs)) ++ [exactText cs] := by
  have hall : wholeText.fill cs = exactText cs := List.append_nil _
  have hattributes (text : List Char) : attributes.map ((fun i : Frame × List Char => i.1.fill i.2) ∘
      fun key => (having "" key, text)) = attributes.map (byAttribute "" text) := rfl
  unfold insertions
  simp only [List.map_append, List.map_map, List.map_cons, List.map_nil, hall, hattributes]
  cases hasWord submitWords (lower cs) <;> rfl

/-- **What the candidates of a phrase are**: the plain ones, and the texts in their frames. -/
theorem mem_candidates_iff : item ∈ candidates cs ↔
    item ∈ plain cs ∨ ∃ f text, (f, text) ∈ insertions cs ∧ f.fill text = item := by
  have hframes : (∃ f text, (f, text) ∈ insertions cs ∧ f.fill text = item) ↔
      item ∈ (insertions cs).map fun i => i.1.fill i.2 := by
    rw [List.mem_map, Prod.exists]
  rw [hframes, map_fill_insertions]
  unfold candidates plain
  by_cases hsubmit : hasWord submitWords (lower cs) = true
  · simp only [hsubmit, if_true, List.mem_append]
    tauto
  · simp only [hsubmit, List.mem_append]
    tauto

/-- No closing has a quote, and the texts are the phrase and its label. -/
theorem insertions_spec (cs : List Char) :
    ∀ i ∈ insertions cs, '"' ∉ i.1.closing ∧ (i.2 = cs ∨ i.2 = labelOrPhrase cs) := by
  have hattributes (text : List Char) (htext : text = cs ∨ text = labelOrPhrase cs) :
      ∀ i ∈ attributes.map fun key => (having "" key, text), '"' ∉ i.1.closing ∧ (i.2 = cs ∨ i.2 = labelOrPhrase cs) := by
    rintro i hi
    obtain ⟨key, -, rfl⟩ := List.mem_map.mp hi
    exact ⟨by simp [having], htext⟩
  unfold insertions
  simp only [List.forall_mem_append]
  refine ⟨⟨⟨⟨?_, ?_⟩, hattributes cs (.inl rfl)⟩, hattributes _ (.inr rfl)⟩, ?_⟩
  · simp [showing]
  · split
    · simp [having]
    · exact fun _ => nofun
  · simp [wholeText]

/-- **A text in its frame** stays there. -/
theorem Frame.holds_fill {f : Frame} (h : '"' ∉ f.closing) (text : List Char) : f.Holds text (f.fill text) := by
  refine ⟨h, text.flatMap escapeChar, ?_, literalBody?_append text f.closing⟩
  simp [fill, literal]

end Locator

/-! ## 3. The locators of a phrase -/

open Locator

variable {phrase : String}

theorem mem_locators_iff (h : trim phrase.toList ≠ []) {item : List Char} :
    String.ofList item ∈ locators phrase ↔ item ∈ candidates (trim phrase.toList) := by
  rw [locators_of_filled h, List.mem_map]
  simp [String.ofList_inj]

/-- **No text of a phrase breaks out of its literal.** A candidate is a plain one, or a frame around the phrase or its
    label; in that case, who reads it from the quote behind what opens the frame, with a backslash in front of a
    character that is meant as it stands, reads that text and stops at the last quote of the candidate. Every frame
    occurs with its text, and the last candidate tells the phrases apart. -/
theorem literals_contained (h : trim phrase.toList ≠ []) :
    (∀ item, String.ofList item ∈ locators phrase → item ∈ plain (trim phrase.toList) ∨
      ∃ f text, (f, text) ∈ insertions (trim phrase.toList) ∧ f.Holds text item) ∧
    (∀ f text, (f, text) ∈ insertions (trim phrase.toList) →
      (text = trim phrase.toList ∨ text = labelOrPhrase (trim phrase.toList)) ∧
        String.ofList (f.fill text) ∈ locators phrase ∧ f.Holds text (f.fill text)) ∧
    ∀ other, (locators other).getLast? = (locators phrase).getLast? → trim other.toList = trim phrase.toList := by
  have hspec := insertions_spec (trim phrase.toList)
  refine ⟨fun item hitem => ?_, fun f text hf => ?_, fun other hlast => ?_⟩
  · rw [mem_locators_iff h, mem_candidates_iff] at hitem
    refine hitem.imp_right ?_
    rintro ⟨f, text, hf, rfl⟩
    exact ⟨f, text, hf, Frame.holds_fill (hspec _ hf).1 text⟩
  · refine ⟨(hspec _ hf).2, ?_, Frame.holds_fill (hspec _ hf).1 text⟩
    rw [mem_locators_iff h, mem_candidates_iff]
    exact .inr ⟨f, text, hf, rfl⟩
  · rw [getLast?_locators h] at hlast
    by_cases hother : trim other.toList = []
    · rw [locators_eq_nil_iff.mpr (trim_eq_nil_iff.mp hother)] at hlast
      cases hlast
    · rw [getLast?_locators hother, Option.some_inj, String.ofList_inj] at hlast
      exact exactText_inj hlast

/-- A phrase with quotes and backslashes at its ends. -/
theorem literals_contained_quoted : trim " \"Say \\\"hi\\ ".toList ≠ [] ∧
    String.ofList "text=\"\\\"Say \\\\\\\"hi\\\\\"".toList ∈ locators " \"Say \\\"hi\\ " ∧
    wholeText.Holds "\"Say \\\"hi\\".toList "text=\"\\\"Say \\\\\\\"hi\\\\\"".toList := by
  have hfilled : trim " \"Say \\\"hi\\ ".toList ≠ [] := by decide +kernel
  have hin : (wholeText, "\"Say \\\"hi\\".toList) ∈ insertions (trim " \"Say \\\"hi\\ ".toList) :=
    List.mem_append_right _ (List.mem_singleton.mpr rfl)
  exact ⟨hfilled, ((literals_contained hfilled).2.1 _ _ hin).2⟩

end StepRunner
