import StepRunner.Proofs.Step.Trigger
import StepRunner.Proofs.Text.Spelling

/-!
# Words of a sentence

A word stands in a text where the text has one of its forms (`IsForm`), bare or inflected, and no letter, digit
or underscore touches it (`StandsAlone`). This says what the search for trigger words comes to, without a
search in it.

* `hasTrigger_iff_stands`: a search succeeds exactly if one of its words stands in the text;
* `stands_append_cons_iff`: a character that is in no word parts a text, unless a keyword of several words goes
  across;
* `stands_iff_eq_append`: in a text of one word stands what the text is a form of;
* `stands_lower_trim`: blanks at the ends make no difference, also in lower case.
-/

namespace StepRunner.Step

open Text

variable {word : String} {words : List String} {c : Char} {u cs x y front behind blanks : List Char}

/-! ## 1. What stands in a text -/

/-- The text is the word, bare or inflected. -/
def IsForm (word : String) (u : List Char) : Prop :=
  ∃ w ending, u = w ++ ending ∧ Spells word.toList w ∧ ∃ e ∈ inflections, ending.map fold = e.toList

/-- Somewhere in the text stands another that neither a letter nor a digit nor an underscore touches. -/
def StandsAlone (u cs : List Char) : Prop := ∃ before after, cs = before ++ u ++ after ∧
  (∀ c ∈ before.getLast?, isWord c = false) ∧ ∀ c ∈ after.head?, isWord c = false

/-- The word, bare or inflected, stands in the text as a word of its own. -/
def Stands (word : String) (cs : List Char) : Prop := ∃ u, IsForm word u ∧ StandsAlone u cs

theorem begins_iff_form (hword : IsKeyword word.toList) : Begins word cs ↔
    ∃ u after, cs = u ++ after ∧ IsForm word u ∧ atWordEnd after = true := by
  simp only [Begins, afterKeyword?_eq_some_iff hword.spelled hword.single, afterLiteral?_eq_some_iff]
  constructor
  · rintro ⟨_, e, after, ⟨w, rfl, hw⟩, he, ⟨ending, rfl, hending⟩, hend⟩
    exact ⟨w ++ ending, after, (List.append_assoc _ _ _).symm, ⟨w, ending, rfl, hw, e, he, hending⟩, hend⟩
  · rintro ⟨_, after, rfl, ⟨w, ending, rfl, hw, e, he, hending⟩, hend⟩
    exact ⟨ending ++ after, e, after, ⟨w, List.append_assoc _ _ _, hw⟩, he, ⟨ending, rfl, hending⟩, hend⟩

/-- **A search for words** succeeds exactly if one of them stands in the text. -/
theorem hasTrigger_iff_stands (hwords : ∀ word ∈ words, IsKeyword word.toList) :
    hasTrigger words cs = true ↔ ∃ word ∈ words, Stands word cs := by
  rw [hasTrigger_iff]
  constructor
  · rintro ⟨before, rest, rfl, hstart, word, hmem, hbegins⟩
    obtain ⟨u, after, rfl, hform, hend⟩ := (begins_iff_form (hwords word hmem)).mp hbegins
    exact ⟨word, hmem, u, hform, before, after, (List.append_assoc _ _ _).symm, atWordStart_iff.mp hstart,
      atWordEnd_iff.mp hend⟩
  · rintro ⟨word, hmem, u, hform, before, after, rfl, hstart, hend⟩
    exact ⟨before, u ++ after, List.append_assoc _ _ _, atWordStart_iff.mpr hstart, word, hmem,
      (begins_iff_form (hwords word hmem)).mpr ⟨u, after, rfl, hform, atWordEnd_iff.mpr hend⟩⟩

/-! ## 2. The characters of a form -/

theorem foldsToLetter_of_ending {ending : List Char} {e : String} (he : e ∈ inflections)
    (hending : ending.map fold = e.toList) (hc : c ∈ ending) : foldsToLetter c = true := by
  obtain ⟨hspelled, hspace⟩ := spelled_inflections e he
  have hmem : fold c ∈ e.toList := hending ▸ List.mem_map_of_mem hc
  rcases hspelled.1 _ hmem with hletter | hblank
  · exact foldsToLetter_of_fold rfl hletter
  · exact absurd (hblank ▸ hmem) hspace

theorem fold_inflections : ∀ e ∈ inflections, e.toList.map fold = e.toList := by
  decide

/-- A word with an ending is one of its forms. -/
theorem isForm_append (hword : IsKeyword word.toList) {e : String} (he : e ∈ inflections) :
    IsForm word (word.toList ++ e.toList) :=
  ⟨word.toList, e.toList, rfl, spells_self hword.spelled, e, he, fold_inflections e he⟩

theorem IsForm.chars (h : IsForm word u) : ∀ c ∈ u, foldsToLetter c = true ∨ isBlank c = true := by
  obtain ⟨w, ending, rfl, hw, e, he, hending⟩ := h
  exact List.forall_mem_append.mpr ⟨hw.chars, fun c hc => .inl (foldsToLetter_of_ending he hending hc)⟩

/-- In front of a blank of a form stands another, or the letter in front of a space of the word. -/
theorem IsForm.before_blank (hword : IsKeyword word.toList) (h : IsForm word u) (hu : u = front ++ c :: behind)
    (hc : isBlank c = true) : ∃ d ∈ front.getLast?, isBlank d = true ∨ [fold d, ' '] <:+: word.toList := by
  obtain ⟨w, ending, rfl, hw, e, he, hending⟩ := h
  rcases append_cons_eq_append hu.symm with ⟨t, hplace, -⟩ | ⟨s, -, hplace⟩
  · refine (hw.before_blank hplace hc).resolve_left fun hfirst => ?_
    have hne := hword.first
    rw [hfirst.2] at hne
    cases hne
  · have hletter := foldsToLetter_of_ending he hending (show c ∈ ending by simp [hplace])
    rw [isBlank_eq_false_of_foldsToLetter hletter] at hc
    cases hc

theorem IsForm.ne_nil (hword : IsKeyword word.toList) (h : IsForm word u) : u ≠ [] := by
  obtain ⟨w, ending, rfl, hw, -⟩ := h
  refine List.append_ne_nil_of_left_ne_nil (hw.ne_nil fun hnil => ?_) ending
  have hfirst := hword.first
  rw [hnil] at hfirst
  cases hfirst

theorem IsForm.last (hword : IsKeyword word.toList) (h : IsForm word u) :
    ∀ c ∈ u.getLast?, isBlank c = false := by
  obtain ⟨w, ending, rfl, hw, e, he, hending⟩ := h
  intro c hc
  refine isBlank_eq_false_of_foldsToLetter ?_
  by_cases hbare : ending = []
  · rw [hbare, List.append_nil] at hc
    exact hw.last hword.spelled.2.2 c hc
  · rw [List.getLast?_append_of_ne_nil _ hbare] at hc
    exact foldsToLetter_of_ending he hending (List.mem_of_getLast? hc)

theorem not_stands_nil (hword : IsKeyword word.toList) : ¬ Stands word [] := by
  rintro ⟨u, hform, before, after, e, -⟩
  obtain ⟨hleft, -⟩ := List.append_eq_nil_iff.mp e.symm
  exact hform.ne_nil hword (List.append_eq_nil_iff.mp hleft).2

/-! ## 3. Parts of a text -/

/-- What stands alone and does not go across a character that is in no word stands in front of it or behind. -/
theorem standsAlone_append_cons_iff (hc : isWord c = false) (hcross : ∀ s t, u = s ++ c :: t → ¬ s <:+ x) :
    StandsAlone u (x ++ c :: y) ↔ StandsAlone u x ∨ StandsAlone u y := by
  constructor
  · rintro ⟨before, after, e, hstart, hend⟩
    rcases append_cons_eq_append_append e with ⟨t, rfl, rfl⟩ | ⟨s, t, rfl, hx, -⟩ | ⟨s, rfl, hx⟩
    · refine .inr ⟨t, after, rfl, fun d hd => hstart d ?_, hend⟩
      rw [List.getLast?_append, List.getLast?_cons, Option.mem_def.mp hd]
      rfl
    · exact absurd ⟨before, hx.symm⟩ (hcross s t rfl)
    · refine .inl ⟨before, s, hx, hstart, fun d hd => hend d ?_⟩
      rw [List.head?_append, Option.mem_def.mp hd]
      rfl
  · rintro (⟨before, after, rfl, hstart, hend⟩ | ⟨before, after, rfl, hstart, hend⟩)
    · refine ⟨before, after ++ c :: y, by simp, hstart, fun d hd => ?_⟩
      cases after with
      | nil =>
          obtain rfl := Option.some.inj hd
          exact hc
      | cons a after => exact hend d hd
    · refine ⟨x ++ c :: before, after, by simp, fun d hd => ?_, hend⟩
      rw [List.getLast?_append, List.getLast?_cons] at hd
      cases hlast : before.getLast? with
      | none =>
          rw [hlast] at hd
          obtain rfl := Option.some.inj hd
          exact hc
      | some a =>
          rw [hlast] at hd
          exact hstart d (hlast.trans hd)

/-- **A character that is in no word** parts a text for the words that stand in it. Only where it is a blank may
    a keyword go across, and then what stands in front of it is the end of one of the keyword's words. -/
theorem stands_append_cons_iff (hword : IsKeyword word.toList) (hc : isWord c = false)
    (hx : isBlank c = true → ∀ d ∈ x.getLast?, isBlank d = false ∧ ¬ [fold d, ' '] <:+: word.toList) :
    Stands word (x ++ c :: y) ↔ Stands word x ∨ Stands word y := by
  have hpart {u : List Char} (hform : IsForm word u) :
      StandsAlone u (x ++ c :: y) ↔ StandsAlone u x ∨ StandsAlone u y := by
    refine standsAlone_append_cons_iff hc ?_
    rintro s t rfl ⟨r, rfl⟩
    rcases hform.chars c (by simp) with hletter | hblank
    · rw [isWord_of_foldsToLetter hletter] at hc
      cases hc
    · obtain ⟨d, hd, hcase⟩ := hform.before_blank hword rfl hblank
      have hlast : d ∈ (r ++ s).getLast? := by
        rw [List.getLast?_append, Option.mem_def.mp hd]
        rfl
      obtain ⟨hsolid, hends⟩ := hx hblank d hlast
      rcases hcase with h | h
      · rw [hsolid] at h
        cases h
      · exact hends h
  constructor
  · rintro ⟨u, hform, h⟩
    exact ((hpart hform).mp h).imp (fun h => ⟨u, hform, h⟩) fun h => ⟨u, hform, h⟩
  · rintro (⟨u, hform, h⟩ | ⟨u, hform, h⟩)
    · exact ⟨u, hform, (hpart hform).mpr (.inl h)⟩
    · exact ⟨u, hform, (hpart hform).mpr (.inr h)⟩

/-! ## 4. Texts of one word -/

/-- In a text without a boundary only the whole of it stands alone. -/
theorem standsAlone_iff_eq (hcs : ∀ c ∈ cs, isWord c = true) : StandsAlone u cs ↔ u = cs := by
  constructor
  · rintro ⟨before, after, rfl, hstart, hend⟩
    have hnone {c : Char} (hc : c ∈ before ++ u ++ after) : ¬ isWord c = false := by
      rw [hcs c hc]
      exact nofun
    have hbefore : before = [] := by
      by_contra hne
      obtain ⟨c, hc⟩ := Option.ne_none_iff_exists'.mp (mt List.getLast?_eq_none_iff.mp hne)
      exact hnone (by simp [List.mem_of_getLast? hc]) (hstart c hc)
    have hafter : after = [] := by
      by_contra hne
      obtain ⟨c, hc⟩ := Option.ne_none_iff_exists'.mp (mt List.head?_eq_none_iff.mp hne)
      exact hnone (by simp [List.mem_of_mem_head? hc]) (hend c hc)
    rw [hbefore, hafter, List.nil_append, List.append_nil]
  · rintro rfl
    exact ⟨[], [], by simp, nofun, nofun⟩

/-- **In a text of small letters without a boundary** stands a word if the text is the word, bare or inflected. -/
theorem stands_iff_eq_append (hword : IsKeyword word.toList) (hcs : ∀ c ∈ cs, isWord c = true)
    (hsmall : cs.map fold = cs) : Stands word cs ↔ ∃ e ∈ inflections, cs = word.toList ++ e.toList := by
  constructor
  · rintro ⟨u, hform, halone⟩
    obtain rfl := (standsAlone_iff_eq hcs).mp halone
    obtain ⟨w, ending, rfl, hspells, e, he, hending⟩ := hform
    have hsolid : ∀ c ∈ w, isBlank c = false := fun c hc =>
      isBlank_eq_false_of_isWord (hcs c (List.mem_append_left _ hc))
    refine ⟨e, he, ?_⟩
    rw [← hsmall, List.map_append, hspells.map_fold hsolid, hending]
  · rintro ⟨e, he, rfl⟩
    exact ⟨_, isForm_append hword he, (standsAlone_iff_eq hcs).mpr rfl⟩

/-! ## 5. Blanks at the ends -/

theorem stands_blanks_append (hword : IsKeyword word.toList) (hblanks : ∀ c ∈ blanks, isBlank c = true) :
    Stands word (blanks ++ cs) ↔ Stands word cs := by
  induction blanks with
  | nil => exact Iff.rfl
  | cons c blanks ih =>
      rw [List.forall_mem_cons] at hblanks
      have hpart : Stands word ([] ++ c :: (blanks ++ cs)) ↔ Stands word [] ∨ Stands word (blanks ++ cs) :=
        stands_append_cons_iff hword (isWord_eq_false_of_isBlank hblanks.1) nofun
      exact hpart.trans ((or_iff_right (not_stands_nil hword)).trans (ih hblanks.2))

theorem stands_append_blanks (hword : IsKeyword word.toList) (hblanks : ∀ c ∈ blanks, isBlank c = true) :
    Stands word (cs ++ blanks) ↔ Stands word cs := by
  refine exists_congr fun u => and_congr_right fun hform => ⟨?_, ?_⟩
  · rintro ⟨before, after, e, hstart, hend⟩
    rcases List.append_eq_append_iff.mp e with ⟨t, ht, hb⟩ | ⟨t, rfl, rfl⟩
    · -- a form does not end in a blank
      refine ⟨before, [], ?_, hstart, nofun⟩
      rw [List.append_nil, ht]
      cases hlast : t.getLast? with
      | none => rw [List.getLast?_eq_none_iff.mp hlast, List.append_nil]
      | some d =>
          have hu : d ∈ u.getLast? := by
            rw [← List.getLast?_append_of_ne_nil before (hform.ne_nil hword), ht, List.getLast?_append, hlast]
            rfl
          have hd := hblanks d (hb ▸ List.mem_append_left _ (List.mem_of_getLast? hlast))
          rw [hform.last hword d hu] at hd
          cases hd
    · refine ⟨before, t, rfl, hstart, fun d hd => hend d ?_⟩
      rw [List.head?_append, Option.mem_def.mp hd]
      rfl
  · rintro ⟨before, after, rfl, hstart, hend⟩
    refine ⟨before, after ++ blanks, List.append_assoc _ _ _, hstart, fun d hd => ?_⟩
    cases after with
    | nil => exact isWord_eq_false_of_isBlank (hblanks d (List.mem_of_mem_head? hd))
    | cons a after => exact hend d hd

/-- **Blanks at the ends** make no difference to the words of a text in lower case. -/
theorem stands_lower_trim (hword : IsKeyword word.toList) (cs : List Char) :
    Stands word (lower (trim cs)) ↔ Stands word (lower cs) := by
  obtain ⟨front, back, e, hfront, hback⟩ := eq_trim cs
  have hlower : lower cs = front ++ (lower (trim cs) ++ back) := by
    rw [← lower_append_blanks hback, ← lower_blanks_append hfront, ← List.append_assoc, ← e]
  rw [hlower, stands_blanks_append hword hfront, stands_append_blanks hword hback]

end StepRunner.Step
