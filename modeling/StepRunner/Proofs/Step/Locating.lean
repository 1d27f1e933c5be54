import StepRunner.Proofs.Locator.Sequence
import StepRunner.Proofs.Step.Classification

/-!
# What a step looks for

A sentence is read for a selector in one place and the target is looked for in another, and each decides on its own
what a selector is. They agree: a target that was found as a selector is its own first candidate, and so is the
locator of a form field. Only a list may be named by blanks between quotes, and these have no candidate.

* `head?_locators_of_selector?`, `head?_locators_inputField`: the first candidate of a selector and of a field;
* `isBlankName_iff`: what is left of the words behind `from` is blank exactly if they are blanks between quotes;
* `locators_source_eq_nil_iff`, `locators_source_ne_nil`: which lists have no candidate, and that this takes a blank
  other than the space;
* `looks_for_target`: what the targets of all sentences come to.
-/

namespace StepRunner

namespace Step

open Text

variable {cs target source lead blanks trail marks : List Char} {c : Char} {f : Family}

/-! ## 1. Selectors and fields -/

theorem isSelector_of_selector? (h : selector? cs = some target) : Locator.isSelector target = true := by
  rcases head?_of_selector? h with hhead | hhead | hhead <;>
  · obtain ⟨t, rfl⟩ := List.head?_eq_some_iff.mp hhead
    rfl

/-- **A selector of a sentence** is its own first candidate. -/
theorem head?_locators_of_selector? (h : selector? cs = some target) :
    (locators (String.ofList target)).head? = some (String.ofList target) := by
  refine head?_locators (isSelector_of_selector? h) (trim_eq_self_of_ends (fun c hc => ?_) (last_of_selector? h))
  rcases head?_of_selector? h with hhead | hhead | hhead <;>
  · obtain rfl := Option.some.inj (hhead.symm.trans hc)
    rfl

/-- **The locator of a field** is its own first candidate. -/
theorem head?_locators_inputField (cs : List Char) : (locators (inputField cs)).head? = some (inputField cs) := by
  have hlocators : ∀ locator ∈ "input" :: formFields.map (·.locator),
      Locator.isSelector locator.toList = true ∧ trim locator.toList = locator.toList := by decide +kernel
  have hmem : inputField cs ∈ "input" :: formFields.map (·.locator) := by
    unfold inputField
    cases hfind : formFields.find? fun field => field.isNamedIn cs with
    | none => exact List.mem_cons_self
    | some field => exact List.mem_cons_of_mem _ (List.mem_map_of_mem (List.mem_of_find?_eq_some hfind))
  obtain ⟨hsel, htrim⟩ := hlocators _ hmem
  have hfirst := head?_locators hsel htrim
  rwa [String.ofList_toList] at hfirst

/-! ## 2. Lists that are named by blanks -/

/-- Blanks that neither start nor end in a space, between spaces and straight quotes, and closing marks behind. -/
structure AreBlankParts (lead blanks trail marks : List Char) : Prop where
  lead : ∀ c ∈ lead, isSpaceOrQuote c = true
  blank : ∀ c ∈ blanks, isBlank c = true
  filled : blanks ≠ []
  first : blanks.head? ≠ some ' '
  last : blanks.getLast? ≠ some ' '
  trail : ∀ c ∈ trail, isSpaceOrQuote c = true
  marks : ∀ c ∈ marks, isClosingMark c = true

theorem isSpaceOrQuote_iff : isSpaceOrQuote c = true ↔ c = ' ' ∨ c = '"' ∨ c = '\'' := by
  simp only [isSpaceOrQuote, Bool.or_eq_true, beq_iff_eq, or_assoc]

/-- A blank other than a space is no quote, either. -/
theorem isSpaceOrQuote_eq_false (hblank : isBlank c = true) (hspace : c ≠ ' ') : isSpaceOrQuote c = false := by
  rw [← Bool.not_eq_true, isSpaceOrQuote_iff]
  rintro (rfl | rfl | rfl)
  · exact hspace rfl
  · cases hblank
  · cases hblank

theorem not_isClosingMark (h : isBlank c = true ∨ isSpaceOrQuote c = true) : isClosingMark c = false := by
  rw [← Bool.not_eq_true]
  intro hmark
  simp only [isClosingMark, Bool.or_eq_true, beq_iff_eq] at hmark
  rcases hmark with (((((rfl | rfl) | rfl) | rfl) | rfl) | rfl) | rfl <;> rcases h with h | h <;> cases h

/-- A name of nothing but blanks, between spaces and quotes. -/
def IsBlankName (source : List Char) : Prop :=
  ∃ lead blanks trail marks, source = lead ++ blanks ++ trail ++ marks ∧ AreBlankParts lead blanks trail marks

theorem AreBlankParts.stripped (h : AreBlankParts lead blanks trail marks) :
    dropRightWhile isSpaceOrQuote ((dropMarks (lead ++ blanks ++ trail ++ marks)).dropWhile isSpaceOrQuote) = blanks := by
  have hmarks : dropMarks (lead ++ blanks ++ trail ++ marks) = lead ++ blanks ++ trail := by
    refine dropRightWhile_run (fun d hd => not_isClosingMark ?_) h.marks
    rcases List.mem_append.mp (List.mem_of_getLast? hd) with hmem | hmem
    · exact (List.mem_append.mp hmem).elim (fun hmem => .inr (h.lead d hmem)) fun hmem => .inl (h.blank d hmem)
    · exact .inr (h.trail d hmem)
  have hlead : (lead ++ blanks ++ trail).dropWhile isSpaceOrQuote = blanks ++ trail := by
    rw [List.append_assoc]
    refine dropWhile_run h.lead fun d hd => ?_
    rw [List.head?_append_of_ne_nil _ h.filled] at hd
    refine isSpaceOrQuote_eq_false (h.blank d (List.mem_of_mem_head? hd)) ?_
    rintro rfl
    exact h.first hd
  rw [hmarks, hlead]
  refine dropRightWhile_run (fun d hd => isSpaceOrQuote_eq_false (h.blank d (List.mem_of_getLast? hd)) ?_) h.trail
  rintro rfl
  exact h.last hd

/-- **What is left of a name** is blank exactly if the name is blanks between quotes. -/
theorem isBlankName_iff : IsBlankName source ↔
    dropRightWhile isSpaceOrQuote ((dropMarks source).dropWhile isSpaceOrQuote) ≠ [] ∧
      allBlank (dropRightWhile isSpaceOrQuote ((dropMarks source).dropWhile isSpaceOrQuote)) = true := by
  constructor
  · rintro ⟨lead, blanks, trail, marks, rfl, h⟩
    rw [h.stripped]
    exact ⟨h.filled, List.all_eq_true.mpr h.blank⟩
  · rintro ⟨hfilled, hblank⟩
    obtain ⟨marks, hsource, hmarks, -⟩ := exists_of_dropRightWhile isClosingMark source
    obtain ⟨lead, hdrop, hlead, hfirst⟩ := exists_of_dropWhile isSpaceOrQuote (dropMarks source)
    obtain ⟨trail, htrail, hall, hlast⟩ :=
      exists_of_dropRightWhile isSpaceOrQuote ((dropMarks source).dropWhile isSpaceOrQuote)
    rw [htrail] at hdrop hfirst
    refine ⟨lead, dropRightWhile isSpaceOrQuote ((dropMarks source).dropWhile isSpaceOrQuote), trail, marks, ?_, ?_⟩
    · rw [List.append_assoc lead, ← hdrop]
      exact hsource
    · exact
        { lead := hlead
          blank := List.all_eq_true.mp hblank
          filled := hfilled
          first := fun hspace => nomatch hfirst ' ' (by rw [List.head?_append, hspace]; rfl)
          last := fun hspace => nomatch hlast ' ' hspace
          trail := hall
          marks := hmarks }

/-- The words behind `from` are blanks between quotes, and neither a selector nor a dropdown is spoken of. -/
def NamesBlanks (cs : List Char) : Prop :=
  selector? cs = none ∧ contains "dropdown".toList (lower cs) = false ∧
    ∃ source, search (atWord sourceHere?) cs = some source ∧ IsBlankName source

theorem allBlank_dropdownField_iff : allBlank (dropdownField cs) = true ↔
    contains "dropdown".toList (lower cs) = false ∧
      ∃ source, search (atWord sourceHere?) cs = some source ∧ IsBlankName source := by
  have hselect : ¬ allBlank "select".toList = true := by decide
  unfold dropdownField
  split
  · next hdropdown => exact iff_of_false hselect fun h => Bool.eq_false_iff.mp h.1 hdropdown
  · next hdropdown =>
      rw [and_iff_right (Bool.eq_false_iff.mpr hdropdown)]
      cases hsearch : search (atWord sourceHere?) cs with
      | none => exact iff_of_false hselect nofun
      | some source =>
          simp only [Option.some.injEq, exists_eq_left', isBlankName_iff]
          split
          · next hempty => exact iff_of_false hselect fun h => h.1 (List.isEmpty_iff.mp hempty)
          · next hfilled => exact (and_iff_right (mt List.isEmpty_iff.mpr hfilled)).symm

/-- **A list that is chosen from** has a candidate, unless it is named by blanks. -/
theorem locators_source_eq_nil_iff :
    locators (String.ofList ((selector? cs).getD (dropdownField cs))) = [] ↔ NamesBlanks cs := by
  cases hsel : selector? cs with
  | none =>
      rw [Option.getD_none, locators_eq_nil_iff, String.toList_ofList, allBlank_dropdownField_iff, NamesBlanks,
        and_iff_right hsel]
  | some target =>
      refine iff_of_false (fun hnone => ?_) fun h => ?_
      · have hfirst := head?_locators_of_selector? hsel
        rw [Option.getD_some] at hnone
        rw [hnone] at hfirst
        cases hfirst
      · cases hsel.symm.trans h.1

theorem subset_of_afterSomeBlanks? {read : List Char → Option (List Char)}
    (hread : ∀ {cs w : List Char}, read cs = some w → w ⊆ cs) (h : afterSomeBlanks? read cs = some source) :
    source ⊆ cs := by
  induction cs with
  | nil => cases h
  | cons c cs ih =>
      rw [afterSomeBlanks?] at h
      split at h
      · rw [Option.orElse_eq_or, Option.or_eq_some_iff] at h
        rcases h with hlater | ⟨-, hhere⟩
        · exact List.Subset.trans (ih hlater) (List.subset_cons_self c cs)
        · exact List.Subset.trans (hread hhere) (List.subset_cons_self c cs)
      · cases h

theorem subset_of_lineToEnd? {read : List Char} (h : lineToEnd? read cs = some source) :
    source ⊆ read.reverse ++ cs := by
  induction cs generalizing read with
  | nil =>
      rw [lineToEnd?] at h
      split at h
      · cases h
      · obtain rfl := Option.some.inj h
        exact List.subset_append_left _ _
  | cons c cs ih =>
      rw [lineToEnd?] at h
      split at h
      · obtain rfl := Option.some.inj h
        exact List.subset_append_left _ _
      · split at h
        · cases h
        · have hrest := ih h
          rwa [List.reverse_cons, List.append_assoc, List.singleton_append] at hrest

/-- The words behind `from` are some of the text. -/
theorem subset_of_sourceHere? (h : sourceHere? cs = some source) : source ⊆ cs := by
  have hline {rest w : List Char} (hread : lineToEnd? [] rest = some w) : w ⊆ rest := subset_of_lineToEnd? hread
  have hkeyword {keyword : List Char} (hk : Spelled keyword) (hsingle : ¬ [' ', ' '] <:+: keyword) {rest mid : List Char}
      (hread : afterKeyword? keyword rest = some mid) : mid ⊆ rest := by
    obtain ⟨w, rfl, -⟩ := (afterKeyword?_eq_some_iff hk hsingle).mp hread
    exact List.subset_append_right w mid
  obtain ⟨mid, hfrom, hmid⟩ := Option.bind_eq_some_iff.mp h
  refine List.Subset.trans (subset_of_afterSomeBlanks? (fun {rest w} hread => ?_) hmid)
    (hkeyword (by decide) (by decide) hfrom)
  rw [Option.orElse_eq_or, Option.or_eq_some_iff] at hread
  rcases hread with harticle | ⟨-, hread⟩
  · obtain ⟨behind, hthe, hbehind⟩ := Option.bind_eq_some_iff.mp harticle
    exact List.Subset.trans (subset_of_afterSomeBlanks? hline hbehind) (hkeyword (by decide) (by decide) hthe)
  · exact hline hread

/-- Only a text with a blank that is no space names a list by blanks. -/
theorem NamesBlanks.exists_blank (h : NamesBlanks cs) : ∃ c ∈ cs, isBlank c = true ∧ c ≠ ' ' := by
  obtain ⟨-, -, _, hsearch, lead, blanks, trail, marks, rfl, hname⟩ := h
  obtain ⟨before, rest, rfl, hread⟩ := exists_of_search_eq_some hsearch
  obtain ⟨c, t, rfl⟩ := List.exists_cons_of_ne_nil hname.filled
  have hsource : sourceHere? rest = some (lead ++ c :: t ++ trail ++ marks) := by
    rw [atWord] at hread
    split at hread
    · exact hread
    · cases hread
  refine ⟨c, List.mem_append_right before (subset_of_sourceHere? hsource (by simp)), hname.blank c List.mem_cons_self, ?_⟩
  rintro rfl
  exact hname.first rfl

theorem mem_of_mem_without {v : Option (List Char)} (h : c ∈ without cs v) : c = ' ' ∨ c ∈ cs := by
  unfold without at h
  split at h
  · exact .inr h
  · exact .inr h
  · exact (mem_of_mem_replaceFirst h).imp_left List.mem_singleton.mp

/-- **In a text whose blanks are spaces** every list has a candidate. -/
theorem locators_source_ne_nil (hspaces : ∀ c ∈ cs, isBlank c = true → c = ' ') (v : Option (List Char)) :
    locators (String.ofList ((selector? (without cs v)).getD (dropdownField (without cs v)))) ≠ [] := by
  intro hnone
  obtain ⟨c, hmem, hblank, hne⟩ := (locators_source_eq_nil_iff.mp hnone).exists_blank
  exact hne ((mem_of_mem_without hmem).elim id fun hmem => hspaces c hmem hblank)

/-! ## 3. Targets -/

/-- The selector that a sentence of the family takes for its target. -/
def Family.selected? (f : Family) (cs : List Char) : Option (List Char) :=
  match f with
  | .click | .hover => selector? cs
  | .assert => if (quotedText? cs).isSome then none else selector? cs
  | .type | .select => selector? (without cs (value? cs))
  | .navigate | .wait | .scroll => none

theorem selector?_of_selected? (h : f.selected? cs = some target) : ∃ rest, selector? rest = some target := by
  cases f with
  | click | hover | type | select => exact ⟨_, h⟩
  | assert =>
      rw [Family.selected?] at h
      split at h
      · cases h
      · exact ⟨_, h⟩
  | navigate | wait | scroll => cases h

theorem target_of_selected? (h : f.selected? cs = some target) :
    ∃ step, parseAs f cs = .ok step ∧ step.target = some (String.ofList target) := by
  cases f with
  | click | hover =>
      have hsel : selector? cs = some target := h
      refine ⟨_, rfl, ?_⟩
      rw [pointedTarget?, hsel]
      rfl
  | assert =>
      refine ⟨_, rfl, ?_⟩
      unfold Family.selected? at h
      cases hquoted : quotedText? cs with
      | some body =>
          rw [hquoted] at h
          cases h
      | none =>
          rw [hquoted] at h
          have hsel : selector? cs = some target := h
          rw [assertedTarget?, hquoted, hsel]
          rfl
  | type | select =>
      have hsel : selector? (without cs (value? cs)) = some target := h
      refine ⟨_, rfl, ?_⟩
      rw [hsel]
      rfl
  | navigate | wait | scroll => cases h

/-- **What a step looks for.** A target that the sentence gave as a selector is its own first candidate, as is every
    target of a step that types, and a step that chooses has a candidate unless its list is named by blanks. -/
theorem looks_for_target {text : String} (hfirst : f.IsFirstIn (lower (trim text.toList))) :
    (∀ target, f.selected? (trim text.toList) = some target → ∃ step, parseStep text = .ok step ∧
      step.target = some (String.ofList target) ∧ (locators (String.ofList target)).head? = some (String.ofList target)) ∧
    (f = .type → ∃ step target, parseStep text = .ok step ∧ step.action = .type ∧ step.target = some target ∧
      (locators target).head? = some target) ∧
    (f = .select → ∃ step target, parseStep text = .ok step ∧ step.action = .select ∧ step.target = some target ∧
      (locators target = [] ↔ NamesBlanks (without (trim text.toList) (value? (trim text.toList))))) := by
  have hparse : parseStep text = parseAs f (trim text.toList) :=
    parseTrimmed_of_find? (Family.find?_eq_some_iff.mpr hfirst)
  rw [hparse]
  refine ⟨fun target h => ?_, ?_, ?_⟩
  · obtain ⟨step, hstep, htarget⟩ := target_of_selected? h
    obtain ⟨rest, hsel⟩ := selector?_of_selected? h
    exact ⟨step, hstep, htarget, head?_locators_of_selector? hsel⟩
  · rintro rfl
    refine ⟨_, _, rfl, rfl, rfl, ?_⟩
    cases hsel : selector? (without (trim text.toList) (value? (trim text.toList))) with
    | none => exact head?_locators_inputField _
    | some target => exact head?_locators_of_selector? hsel
  · rintro rfl
    exact ⟨_, _, rfl, rfl, rfl, locators_source_eq_nil_iff⟩

/-- **A tab between quotes** names a list that nothing is found for, whereas a selector is found as it is. -/
theorem looks_for_target_tab : Family.select.IsFirstIn (lower (trim "select 'Canada' from '\t'".toList)) ∧
    NamesBlanks (without (trim "select 'Canada' from '\t'".toList) (value? (trim "select 'Canada' from '\t'".toList))) ∧
    (∃ step target, parseStep "select 'Canada' from '\t'" = .ok step ∧ step.target = some target ∧
      locators target = []) ∧
    Family.hover.IsFirstIn (lower (trim "hover over .menu-2".toList)) ∧
    Family.hover.selected? (trim "hover over .menu-2".toList) = some ".menu-2".toList ∧
    ∃ step, parseStep "hover over .menu-2" = .ok step ∧ step.target = some ".menu-2" ∧
      (locators ".menu-2").head? = some ".menu-2" := by
  have hselect : Family.select.IsFirstIn (lower (trim "select 'Canada' from '\t'".toList)) :=
    Family.find?_eq_some_iff.mp (by decide +kernel)
  have hblanks : NamesBlanks
      (without (trim "select 'Canada' from '\t'".toList) (value? (trim "select 'Canada' from '\t'".toList))) := by
    refine ⟨by decide +kernel, by decide +kernel, "'\t'".toList, by decide +kernel, ['\''], ['\t'], ['\''], [], rfl, ?_⟩
    exact
      { lead := List.forall_mem_singleton.mpr rfl
        blank := List.forall_mem_singleton.mpr rfl
        filled := List.cons_ne_nil _ _
        first := nofun
        last := nofun
        trail := List.forall_mem_singleton.mpr rfl
        marks := nofun }
  have hhover : Family.hover.IsFirstIn (lower (trim "hover over .menu-2".toList)) :=
    Family.find?_eq_some_iff.mp (by decide +kernel)
  have hselected : Family.hover.selected? (trim "hover over .menu-2".toList) = some ".menu-2".toList := by
    decide +kernel
  obtain ⟨step, target, hstep, -, htarget, hnone⟩ := (looks_for_target hselect).2.2 rfl
  have hfound := (looks_for_target hhover).1 _ hselected
  rw [String.ofList_toList] at hfound
  exact ⟨hselect, hblanks, ⟨step, target, hstep, htarget, hnone.mpr hblanks⟩, hhover, hselected, hfound⟩

end Step

end StepRunner
