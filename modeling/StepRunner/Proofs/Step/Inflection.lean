import StepRunner.Proofs.Step.Classification

/-!
# Inflected trigger words

A verb takes the endings s, ed and ing, and drops a final e before the last two. The endings that a trigger word
may have are put behind the whole word instead, so that the verbs in e lose two of their forms.

* `stands_form`: a form that leaves the word whole stands in front of every text;
* `standsIn_form_iff`: a form that has lost its e is no trigger word, and what comes behind it decides alone;
* `readAs_inflected_iff`: a sentence that begins with an inflected trigger word is read as one of its family, or
  of a family before it, exactly if the word is whole or the rest of the sentence is so read.
-/

namespace StepRunner

namespace Step

open Text

variable {word : String} {cs : List Char} {f g : Family} {i : Inflection} {r : String}

/-! ## 1. Verbs -/

/-- The regular endings of a verb. -/
inductive Inflection where
  | s
  | ed
  | ing
  deriving DecidableEq, Repr

namespace Inflection

/-- All endings. -/
def all : List Inflection := [.s, .ed, .ing]

/-- The verb without a final e. -/
def stem (verb : List Char) : List Char := if verb.getLast? = some 'e' then verb.dropLast else verb

/-- The verb with the ending. -/
def form : Inflection → List Char → List Char
  | .s, verb => verb ++ "s".toList
  | .ed, verb => stem verb ++ "ed".toList
  | .ing, verb => stem verb ++ "ing".toList

/-- The ending stands behind the whole verb. -/
def Keeps (i : Inflection) (verb : List Char) : Prop := i = .s ∨ verb.getLast? ≠ some 'e'

instance (i : Inflection) (verb : List Char) : Decidable (i.Keeps verb) := inferInstanceAs (Decidable (_ ∨ _))

theorem mem_all (i : Inflection) : i ∈ all := by
  cases i <;> decide

theorem form_of_keeps {verb : List Char} (h : i.Keeps verb) : ∃ e ∈ inflections, i.form verb = verb ++ e.toList := by
  have hstem (he : verb.getLast? ≠ some 'e') : stem verb = verb := if_neg he
  cases i with
  | s => exact ⟨"s", by decide, rfl⟩
  | ed => exact ⟨"ed", by decide, by rw [form, hstem (h.resolve_left nofun)]⟩
  | ing => exact ⟨"ing", by decide, by rw [form, hstem (h.resolve_left nofun)]⟩

/-- The sentence that begins with the inflected verb. -/
def sentence (i : Inflection) (verb : String) (r : String) : String :=
  String.ofList (i.form verb.toList ++ ' ' :: r.toList)

end Inflection

/-! ## 2. Forms of trigger words -/

theorem lower_form : ∀ f ∈ Family.all, ∀ word ∈ f.triggers, ∀ i ∈ Inflection.all,
    lower (i.form word.toList) = i.form word.toList := by
  decide +kernel

/-- **A form that leaves the word whole** stands in front of every text. -/
theorem stands_form (hword : word ∈ f.triggers) (h : i.Keeps word.toList) (cs : List Char) :
    Stands word (i.form word.toList ++ ' ' :: cs) := by
  obtain ⟨e, he, hform⟩ := Inflection.form_of_keeps h
  refine ⟨i.form word.toList, hform ▸ isForm_append (isKeyword_of_mem_triggers f hword) he, [], ' ' :: cs, rfl, nofun,
    fun c hc => ?_⟩
  obtain rfl := Option.some.inj hc
  rfl

/-- The forms of the verbs in e that have lost it are of one word in small letters, and do not end in an o. -/
theorem chars_of_not_keeps : ∀ f ∈ Family.all, ∀ word ∈ f.triggers, ∀ i ∈ Inflection.all, ¬ i.Keeps word.toList →
    (i.form word.toList).all isWord = true ∧ (i.form word.toList).map fold = i.form word.toList ∧
      (i.form word.toList).getLast?.all (fun d => fold d != 'o') = true := by
  decide +kernel

/-- They are no forms of trigger words. -/
theorem not_hasForm_of_not_keeps : ∀ f ∈ Family.all, ∀ word ∈ f.triggers, ∀ i ∈ Inflection.all,
    ¬ i.Keeps word.toList → ∀ g ∈ Family.all, ¬ g.HasForm (i.form word.toList) := by
  decide +kernel

/-- **A form that has lost its e** is no trigger word, and what comes behind it decides alone. -/
theorem standsIn_form_iff (hword : word ∈ f.triggers) (h : ¬ i.Keeps word.toList) (g : Family) (cs : List Char) :
    g.StandsIn (i.form word.toList ++ ' ' :: cs) ↔ g.StandsIn cs := by
  obtain ⟨hall, hsmall, hends⟩ := chars_of_not_keeps f f.mem_all word hword i i.mem_all h
  have hchars := List.all_eq_true.mp hall
  have hlast : ∀ d ∈ (i.form word.toList).getLast?, isBlank d = false ∧ fold d ≠ 'o' := by
    intro d hd
    rw [Option.mem_def.mp hd] at hends
    exact ⟨isBlank_eq_false_of_isWord (hchars d (List.mem_of_getLast? hd)), bne_iff_ne.mp hends⟩
  rw [Family.standsIn_append_cons_iff (by decide) fun _ => hlast, Family.standsIn_iff_hasForm hchars hsmall]
  exact or_iff_right (not_hasForm_of_not_keeps f f.mem_all word hword i i.mem_all h g g.mem_all)

/-! ## 3. Sentences with an inflected word in front -/

/-- The sentence is read as one of the family. -/
structure ReadAs (f : Family) (text : String) : Prop where
  first : f.IsFirstIn (lower (trim text.toList))
  step : parseStep text = parseAs f (trim text.toList)

theorem readAs_iff : ReadAs f r ↔ f.IsFirstIn (lower (trim r.toList)) :=
  ⟨fun h => h.first, fun h => ⟨h, parseTrimmed_of_find? (Family.find?_eq_some_iff.mpr h)⟩⟩

/-- Where a family has a word in a text, it or one before it is the first. -/
theorem exists_isFirstIn_iff : (∃ g : Family, g.rank ≤ f.rank ∧ g.IsFirstIn cs) ↔
    ∃ g : Family, g.rank ≤ f.rank ∧ g.StandsIn cs := by
  constructor
  · rintro ⟨g, hrank, hfirst⟩
    exact ⟨g, hrank, hfirst.stands⟩
  · rintro ⟨g, hrank, hstands⟩
    cases hfind : Family.find? cs with
    | none => exact absurd hstands (Family.find?_eq_none_iff.mp hfind g)
    | some first =>
        have hfirst := Family.find?_eq_some_iff.mp hfind
        have hle : first.rank ≤ g.rank := Nat.le_of_not_lt fun hlt => hfirst.first g hlt hstands
        exact ⟨first, hle.trans hrank, hfirst⟩

theorem exists_readAs_iff : (∃ g : Family, g.rank ≤ f.rank ∧ ReadAs g r) ↔
    ∃ g : Family, g.rank ≤ f.rank ∧ g.StandsIn (lower r.toList) := by
  have htrim (g : Family) : g.StandsIn (lower (trim r.toList)) ↔ g.StandsIn (lower r.toList) :=
    exists_congr fun word => and_congr_right fun hword => stands_lower_trim (isKeyword_of_mem_triggers g hword) _
  simp only [readAs_iff, exists_isFirstIn_iff, htrim]

theorem lower_sentence (hword : word ∈ f.triggers) :
    lower (i.sentence word r).toList = i.form word.toList ++ ' ' :: lower r.toList := by
  rw [Inflection.sentence, String.toList_ofList, lower_append_blank (by decide),
    lower_form f f.mem_all word hword i i.mem_all]

/-- **An inflected trigger word** in front of a sentence counts, for its family or one before it, exactly if the
    ending leaves it whole; else the rest of the sentence counts alone. -/
theorem readAs_inflected_iff (hword : word ∈ f.triggers) (i : Inflection) (r : String) :
    (∃ g : Family, g.rank ≤ f.rank ∧ ReadAs g (i.sentence word r)) ↔
      i.Keeps word.toList ∨ ∃ g : Family, g.rank ≤ f.rank ∧ ReadAs g r := by
  rw [exists_readAs_iff, exists_readAs_iff, lower_sentence hword]
  by_cases h : i.Keeps word.toList
  · exact iff_of_true ⟨f, Nat.le_refl _, word, hword, stands_form hword h _⟩ (.inl h)
  · simp only [standsIn_form_iff hword h, h, false_or]

/-- **A verb in e is not recognized** as typed, and the sentence is a click. -/
theorem readAs_inflected_typed : "type" ∈ Family.type.triggers ∧
    (¬ ∃ g : Family, g.rank ≤ Family.type.rank ∧ ReadAs g (Inflection.ed.sentence "type" "'x' into #y")) ∧
      parseStep "typed 'x' into #y" = .ok
        { action := .click, sentence := "typed 'x' into #y", target := some "x" } := by
  have hword : "type" ∈ Family.type.triggers := by decide
  refine ⟨hword, ?_, by decide +kernel⟩
  rw [readAs_inflected_iff hword]
  rintro (hkeeps | ⟨g, -, hread⟩)
  · exact absurd hkeeps (by decide)
  · have hnone : Family.find? (lower (trim "'x' into #y".toList)) = none := by decide +kernel
    rw [Family.find?_eq_some_iff.mpr hread.first] at hnone
    cases hnone

end Step

end StepRunner
