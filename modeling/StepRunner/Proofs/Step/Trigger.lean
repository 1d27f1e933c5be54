import StepRunner.Proofs.Text.Trim
import StepRunner.Step.Trigger

/-!
# Where a trigger word stands

* `hasTrigger_iff`: a trigger word stands in a text if, at the start of a word, the text goes on with it,
  bare or inflected (`Begins`);
* `hasTrigger_of_trim`: blanks at the ends make no difference;
* `hasTrigger_of_lower`: a trigger word of the lower-case text stands in the text itself, or else right
  behind a dotted capital i, whose lower-case form ends in a character that is no letter.
-/

namespace StepRunner.Step

open Text

variable {word : String} {words : List String} {cs rest more : List Char} {acc : List Char}

/-! ## 1. A word at the start of a text -/

/-- The text begins with a word, bare or inflected. -/
def Begins (word : String) (cs : List Char) : Prop :=
  ∃ mid ending rest, afterKeyword? word.toList cs = some mid ∧ ending ∈ inflections ∧
    afterLiteral? ending.toList mid = some rest ∧ atWordEnd rest = true

theorem isSome_afterInflection? : (afterInflection? cs).isSome = true ↔
    ∃ ending rest, ending ∈ inflections ∧ afterLiteral? ending.toList cs = some rest ∧
      atWordEnd rest = true := by
  unfold afterInflection?
  rw [List.isSome_findSome?, List.any_eq_true]
  refine exists_congr fun ending => ?_
  rw [Option.isSome_iff_exists]
  simp only [Option.filter_eq_some_iff]
  exact exists_and_left.symm

theorem isSome_afterTrigger? : (afterTrigger? words cs).isSome = true ↔
    ∃ word ∈ words, Begins word cs := by
  unfold afterTrigger?
  rw [List.isSome_findSome?, List.any_eq_true]
  refine exists_congr fun word => and_congr_right fun _ => ?_
  rw [Option.isSome_bind, Option.any_eq_true]
  simp only [isSome_afterInflection?]
  constructor
  · rintro ⟨mid, hm, ending, rest, he, hr, hend⟩
    exact ⟨mid, ending, rest, hm, he, hr, hend⟩
  · rintro ⟨mid, ending, rest, hm, he, hr, hend⟩
    exact ⟨mid, hm, ending, rest, he, hr, hend⟩

theorem isSome_atWord {prev : Option Char} : (atWord (afterTrigger? words) prev cs).isSome = true ↔
    atWordStart prev = true ∧ ∃ word ∈ words, Begins word cs := by
  unfold atWord
  split
  · next h => rw [isSome_afterTrigger?, and_iff_right h]
  · next h => simp [h]

/-- **A trigger word stands in a text**: somewhere, at the start of a word, the text goes on with it. -/
theorem hasTrigger_iff : hasTrigger words cs = true ↔
    ∃ before rest, cs = before ++ rest ∧ atWordStart before.getLast? = true ∧
      ∃ word ∈ words, Begins word rest := by
  unfold hasTrigger afterFirstTrigger?
  rw [isSome_search_iff]
  simp only [isSome_atWord]

/-! ## 2. The endings -/

theorem spelled_inflections : ∀ ending ∈ inflections, Spelled ending.toList ∧ ' ' ∉ ending.toList := by
  decide

theorem begins_iff : Begins word cs ↔ ∃ mid ending rest, afterKeyword? word.toList cs = some mid ∧
    ending ∈ inflections ∧ afterKeyword? ending.toList mid = some rest ∧ atWordEnd rest = true := by
  unfold Begins
  refine exists_congr fun mid => exists_congr fun ending => exists_congr fun rest =>
    and_congr_right fun _ => and_congr_right fun he => ?_
  rw [afterLiteral?_eq_afterKeyword? (spelled_inflections ending he).2]

/-! ## 3. Blanks at the ends -/

theorem atWordEnd_append (h : atWordEnd rest = true) (hb : ∀ c ∈ more, isBlank c = true) :
    atWordEnd (rest ++ more) = true := by
  cases rest with
  | cons c rest => exact h
  | nil =>
      cases more with
      | nil => rfl
      | cons c more =>
          rw [List.nil_append, atWordEnd_cons, isWord_eq_false_of_isBlank (hb c List.mem_cons_self)]
          rfl

theorem Begins.append (hw : Spelled word.toList) (h : Begins word cs)
    (hb : ∀ c ∈ more, isBlank c = true) : Begins word (cs ++ more) := by
  rw [begins_iff] at h ⊢
  obtain ⟨mid, ending, rest, hm, he, hr, hend⟩ := h
  exact ⟨mid ++ more, ending, rest ++ more, afterKeyword?_append hw hm more, he,
    afterKeyword?_append (spelled_inflections ending he).1 hr more, atWordEnd_append hend hb⟩

theorem atWordStart_append {before : List Char} (h : atWordStart before.getLast? = true)
    (hb : ∀ c ∈ more, isBlank c = true) : atWordStart (more ++ before).getLast? = true := by
  cases hl : before.getLast? with
  | some c => rwa [List.getLast?_append, hl, Option.some_or, ← hl]
  | none =>
      obtain rfl : before = [] := List.getLast?_eq_none_iff.mp hl
      rw [List.append_nil]
      cases hm : more.getLast? with
      | none => rfl
      | some c =>
          have hw := isWord_eq_false_of_isBlank (hb c (List.mem_of_getLast? hm))
          simp [atWordStart, hw]

/-- **Blanks at the ends** make no difference to the words that stand in a text. -/
theorem hasTrigger_of_trim (hw : Spelled word.toList) (h : hasTrigger [word] (trim cs) = true) :
    hasTrigger [word] cs = true := by
  obtain ⟨front, back, e, hf, hb⟩ := eq_trim cs
  rw [hasTrigger_iff] at h ⊢
  obtain ⟨before, rest, ht, hs, w, hm, hbeg⟩ := h
  obtain rfl := List.mem_singleton.mp hm
  refine ⟨front ++ before, rest ++ back, ?_, atWordStart_append hs hf, w, hm, hbeg.append hw hb⟩
  rw [e, ht]
  simp only [List.append_assoc]

/-! ## 4. Lower case -/

theorem begins_of_lower (hw : Spelled word.toList) (h : Begins word (lowerFrom acc cs)) :
    Begins word cs := by
  rw [begins_iff] at h ⊢
  obtain ⟨mid, ending, rest, hm, he, hr, hend⟩ := h
  obtain ⟨acc₁, mid', hm', rfl⟩ := afterKeyword?_of_lower hw hm
  obtain ⟨acc₂, rest', hr', rfl⟩ := afterKeyword?_of_lower (spelled_inflections ending he).1 hr
  exact ⟨mid', ending, rest', hm', he, hr', atWordEnd_of_lower hend⟩

theorem not_begins_dot (hw : Spelled word.toList) (hne : word.toList ≠ []) :
    ¬ Begins word ('\u0307' :: cs) := by
  rintro ⟨mid, -, -, hm, -⟩
  rw [afterKeyword?_dot hw hne] at hm
  cases hm

/-- A word stands right behind a dotted capital i. -/
def StandsBehindDotted (word : String) (cs : List Char) : Prop :=
  ∃ before rest, cs = before ++ '\u0130' :: rest ∧ Begins word rest

/-- A word stands in a text that comes after a character, at the start of a word or right behind a
    dotted capital i. -/
def StandsAfter (word : String) (prev : Option Char) (cs : List Char) : Prop :=
  ∃ before rest, cs = before ++ rest ∧ Begins word rest ∧
    (atWordStart (before.getLast?.or prev) = true ∨ before.getLast?.or prev = some '\u0130')

theorem StandsAfter.cons {c : Char} (h : StandsAfter word (some c) cs) (prev : Option Char) :
    StandsAfter word prev (c :: cs) := by
  obtain ⟨before, rest, rfl, hbeg, hs⟩ := h
  refine ⟨c :: before, rest, rfl, hbeg, ?_⟩
  rw [List.getLast?_cons]
  cases hb : before.getLast? <;> simpa [hb] using hs

theorem standsAfter_of_atWord (acc : List Char) (hw : Spelled word.toList) {prev prev' : Option Char}
    (hp : atWordStart prev' = true → atWordStart prev = true ∨ prev = some '\u0130')
    (h : (atWord (afterTrigger? [word]) prev' (lowerFrom acc cs)).isSome = true) :
    StandsAfter word prev cs := by
  obtain ⟨hs, w, hm, hbeg⟩ := isSome_atWord.mp h
  obtain rfl := List.mem_singleton.mp hm
  exact ⟨[], cs, rfl, begins_of_lower hw hbeg, hp hs⟩

/-- The search for a word in a lower-case text finds it in the text, too. -/
theorem standsAfter_of_lower (hw : Spelled word.toList) (hne : word.toList ≠ [])
    {prev prev' : Option Char}
    (hp : atWordStart prev' = true → atWordStart prev = true ∨ prev = some '\u0130')
    (h : (searchFrom (atWord (afterTrigger? [word])) prev' (lowerFrom acc cs)).isSome = true) :
    StandsAfter word prev cs := by
  induction cs generalizing acc prev prev' with
  | nil => exact standsAfter_of_atWord acc hw hp h
  | cons c cs ih =>
      by_cases hc : c = '\u0130'
      · subst hc
        rw [lowerFrom_dotted, isSome_searchFrom_cons, isSome_searchFrom_cons] at h
        rcases h with h | h | h
        · exact standsAfter_of_atWord acc hw hp h
        · obtain ⟨-, w, hm, hbeg⟩ := isSome_atWord.mp h
          obtain rfl := List.mem_singleton.mp hm
          exact absurd hbeg (not_begins_dot hw hne)
        · exact (ih (fun _ => .inr rfl) h).cons prev
      · obtain ⟨d, hd, ha⟩ := lowerFrom_cons acc cs hc
        rw [hd, isSome_searchFrom_cons, ← hd] at h
        rcases h with h | h
        · exact standsAfter_of_atWord acc hw hp h
        · refine (ih (fun hs => .inl ?_) h).cons prev
          simp only [atWordStart, Option.any_some, Bool.not_eq_true'] at hs ⊢
          rw [← Bool.not_eq_true] at hs ⊢
          exact fun hword => hs (ha.word hword)

/-- **A word of the lower-case text** stands in the text itself, or else right behind a dotted
    capital i. -/
theorem hasTrigger_of_lower (hw : Spelled word.toList) (hne : word.toList ≠ [])
    (h : hasTrigger [word] (lower cs) = true) :
    hasTrigger [word] cs = true ∨ StandsBehindDotted word cs := by
  have hstands : StandsAfter word none cs := standsAfter_of_lower hw hne .inl h
  obtain ⟨before, rest, rfl, hbeg, hs⟩ := hstands
  rw [Option.or_none] at hs
  rcases hs with hs | hs
  · exact .inl (hasTrigger_iff.mpr ⟨before, rest, rfl, hs, word, List.mem_singleton_self _, hbeg⟩)
  · obtain ⟨before, rfl⟩ := List.getLast?_eq_some_iff.mp hs
    exact .inr ⟨before, rest, by simp, hbeg⟩

theorem StandsBehindDotted.of_trim (hw : Spelled word.toList) (h : StandsBehindDotted word (trim cs)) :
    StandsBehindDotted word cs := by
  obtain ⟨front, back, e, -, hb⟩ := eq_trim cs
  obtain ⟨before, rest, ht, hbeg⟩ := h
  refine ⟨front ++ before, rest ++ back, ?_, hbeg.append hw hb⟩
  rw [e, ht]
  simp only [List.append_assoc, List.cons_append]

end StepRunner.Step
