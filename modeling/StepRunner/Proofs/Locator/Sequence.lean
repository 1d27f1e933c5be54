import StepRunner.Proofs.Locator

/-!
# The sequence of candidates

The locators of a phrase are its candidates without later repetitions. Whatever the phrase says, even where it imitates
a candidate, the phrase itself comes first exactly if it is a selector, and its text comes last and nowhere before.

* `eachOnce_eq_eraseDups`: what is kept of a list is what was not seen before, without later repetitions;
* `isSelector_of_mem_dropLast`: every candidate but the last is a selector;
* `exactText_not_mem_dropLast`: the text of the phrase is no earlier candidate;
* `candidates_in_order`: what the locators of a phrase are.
-/

namespace StepRunner

open Text

namespace Locator

variable {cs item : List Char} {seen items : List (List Char)}

/-! ## 1. Later repetitions -/

/-- **What is kept of a list** is what was not seen before, without later repetitions. -/
theorem eachOnce_eq_eraseDups (hfilled : [] ∉ items) :
    eachOnce seen items = (items.filter fun item => !seen.contains item).eraseDups := by
  induction items generalizing seen with
  | nil => rfl
  | cons first rest ih =>
      rw [List.mem_cons, not_or] at hfilled
      have hfirst : first.isEmpty = false := List.isEmpty_eq_false_iff.mpr (Ne.symm hfilled.1)
      rw [eachOnce, hfirst, Bool.false_or, List.filter_cons]
      cases hseen : seen.contains first with
      | true => exact ih hfilled.2
      | false =>
          have hrest : (rest.filter fun item => !(first :: seen).contains item) =
              (rest.filter fun item => !seen.contains item).filter fun item => !item == first := by
            rw [List.filter_filter]
            refine List.filter_congr fun item _ => ?_
            rw [List.contains_cons, Bool.not_or]
          show first :: eachOnce (first :: seen) rest = (first :: rest.filter fun item => !seen.contains item).eraseDups
          rw [ih hfilled.2, hrest, List.eraseDups_cons]

theorem length_eachOnce_le (seen items : List (List Char)) : (eachOnce seen items).length ≤ items.length := by
  induction items generalizing seen with
  | nil => exact Nat.le_refl 0
  | cons first rest ih =>
      rw [eachOnce]
      split
      · exact Nat.le_succ_of_le (ih seen)
      · exact Nat.succ_le_succ (ih (first :: seen))

/-! ## 2. The candidates of a phrase -/

/-- There are at most thirty-four candidates. -/
theorem length_candidates_le (cs : List Char) : (candidates cs).length ≤ 34 := by
  have hsel : (if isSelector cs then [cs] else []).length ≤ 1 := by split <;> simp
  have hsearch : (if contains "search".toList (lower cs) then searchBoxes.map String.toList else []).length ≤ 8 := by
    split <;> simp [searchBoxes]
  have hsubmit : (if hasWord submitWords (lower cs) then submitControls.map String.toList ++
      [byAttribute "input" (labelOrPhrase cs) "value"] else []).length ≤ 3 := by
    split <;> simp [submitControls]
  have hattributes : attributes.length = 9 := rfl
  unfold candidates
  simp only [List.length_append, List.length_map, List.length_cons, List.length_nil]
  omega

/-- **Every candidate but the last** is a selector. -/
theorem isSelector_of_mem_dropLast (h : item ∈ (candidates cs).dropLast) : isSelector item = true := by
  have hlist {items : List String} (hall : ∀ s ∈ items, isSelector s.toList = true)
      (hmem : item ∈ items.map String.toList) : isSelector item = true := by
    obtain ⟨s, hs, rfl⟩ := List.mem_map.mp hmem
    exact hall s hs
  have hattributes {text : List Char} (hmem : item ∈ attributes.map (byAttribute "" text)) : isSelector item = true := by
    obtain ⟨key, -, rfl⟩ := List.mem_map.mp hmem
    rfl
  unfold candidates at h
  rw [List.dropLast_concat] at h
  simp only [List.mem_append] at h
  rcases h with ((((h | h) | h) | h) | h) | h
  · -- the phrase itself
    split at h
    · next hsel => rwa [List.mem_singleton.mp h]
    · cases h
  · -- search boxes
    split at h
    · exact hlist (by decide) h
    · cases h
  · -- elements that show the label
    simp only [List.mem_cons, List.not_mem_nil, or_false] at h
    rcases h with rfl | rfl | rfl <;> rfl
  · -- submit controls
    split at h
    · rcases List.mem_append.mp h with h | h
      · exact hlist (by decide) h
      · rw [List.mem_singleton.mp h]
        rfl
    · cases h
  · exact hattributes h
  · exact hattributes h

theorem candidates_eq_concat (cs : List Char) : candidates cs = (candidates cs).dropLast ++ [exactText cs] := by
  conv_rhs => rw [candidates]
  rw [List.dropLast_concat]
  rfl

/-- **The text of the phrase** is no earlier candidate, since it is no selector. -/
theorem exactText_not_mem_dropLast (cs : List Char) : exactText cs ∉ (candidates cs).dropLast := by
  intro h
  cases (show isSelector (exactText cs) = false from rfl).symm.trans (isSelector_of_mem_dropLast h)

theorem nil_not_mem_candidates (cs : List Char) : [] ∉ candidates cs := by
  rw [candidates_eq_concat, List.mem_append, not_or, List.mem_singleton]
  exact ⟨fun h => (nomatch isSelector_of_mem_dropLast h), (exactText_ne_nil cs).symm⟩

/-- **The first candidate** is the phrase exactly if that is a selector. -/
theorem head?_candidates_eq_some_iff : (candidates cs).head? = some cs ↔ isSelector cs = true := by
  have hlabel : byText "button" (labelOrPhrase cs) ∈ (candidates cs).dropLast := by
    unfold candidates
    rw [List.dropLast_concat]
    simp only [List.mem_append, List.mem_cons, true_or, or_true]
  constructor
  · intro h
    rw [candidates_eq_concat, List.head?_append_of_ne_nil _ (List.ne_nil_of_mem hlabel)] at h
    exact isSelector_of_mem_dropLast (List.mem_of_mem_head? h)
  · intro h
    unfold candidates
    dsimp only
    rw [if_pos h]
    rfl

end Locator

/-! ## 3. The locators of a phrase -/

open Locator

variable {phrase : String} {cs : List Char}

theorem locators_of_filled (h : trim phrase.toList ≠ []) :
    locators phrase = ((candidates (trim phrase.toList)).eraseDups).map String.ofList := by
  unfold locators
  dsimp only
  rw [if_neg (by simpa using h), eachOnce_eq_eraseDups (nil_not_mem_candidates _)]
  simp

theorem head?_eraseDups {α : Type} [BEq α] (items : List α) : items.eraseDups.head? = items.head? := by
  cases items with
  | nil => rfl
  | cons first rest => rw [List.eraseDups_cons, List.head?_cons, List.head?_cons]

/-- **The first locator** is the phrase exactly if that is a selector. -/
theorem head?_locators_eq_some_iff : (locators phrase).head? = some (String.ofList (trim phrase.toList)) ↔
    isSelector (trim phrase.toList) = true := by
  by_cases h : trim phrase.toList = []
  · have hnone : locators phrase = [] := locators_eq_nil_iff.mpr (trim_eq_nil_iff.mp h)
    rw [hnone, h]
    exact iff_of_false nofun nofun
  · rw [locators_of_filled h, List.head?_map, head?_eraseDups, ← head?_candidates_eq_some_iff, Option.map_eq_some_iff]
    simp only [String.ofList_inj, exists_eq_right]

/-- So the first locator of a selector is the selector. -/
theorem head?_locators (hsel : isSelector cs = true) (htrim : trim cs = cs) :
    (locators (String.ofList cs)).head? = some (String.ofList cs) := by
  have hphrase : trim (String.ofList cs).toList = cs := by rw [String.toList_ofList, htrim]
  rw [← hphrase] at hsel
  rw [head?_locators_eq_some_iff.mpr hsel, hphrase]

/-- **The last locator** is the text of the phrase. -/
theorem getLast?_locators (h : trim phrase.toList ≠ []) :
    (locators phrase).getLast? = some (String.ofList (exactText (trim phrase.toList))) := by
  have hfresh : [exactText (trim phrase.toList)].removeAll (candidates (trim phrase.toList)).dropLast =
      [exactText (trim phrase.toList)] := by
    simp [List.removeAll, exactText_not_mem_dropLast]
  have hsingle : [exactText (trim phrase.toList)].eraseDups = [exactText (trim phrase.toList)] := rfl
  rw [locators_of_filled h, candidates_eq_concat, List.eraseDups_append, hfresh, hsingle, List.map_append,
    List.map_singleton, List.getLast?_concat]

theorem length_locators_le (phrase : String) : (locators phrase).length ≤ 34 := by
  unfold locators
  dsimp only
  split
  · exact Nat.zero_le 34
  · rw [List.length_map]
    exact (length_eachOnce_le _ _).trans (length_candidates_le _)

/-- **The candidates of a phrase**: none of a blank phrase; of any other at most thirty-four, no two of them the same,
    which are all that is thought of, in its order, without later repetitions. The trimmed phrase comes first exactly if
    it is a selector, and its text comes last, which no candidate before it is. -/
theorem candidates_in_order (phrase : String) :
    (locators phrase = [] ↔ trim phrase.toList = []) ∧ (locators phrase).length ≤ 34 ∧ (locators phrase).Nodup ∧
      ((locators phrase).head? = some (String.ofList (trim phrase.toList)) ↔ isSelector (trim phrase.toList) = true) ∧
      (trim phrase.toList ≠ [] →
        locators phrase = ((candidates (trim phrase.toList)).eraseDups).map String.ofList ∧
        (locators phrase).getLast? = some (String.ofList (exactText (trim phrase.toList))) ∧
        exactText (trim phrase.toList) ∉ (candidates (trim phrase.toList)).dropLast) := by
  refine ⟨?_, length_locators_le phrase, nodup_locators phrase, head?_locators_eq_some_iff, fun h => ?_⟩
  · rw [locators_eq_nil_iff, trim_eq_nil_iff]
  · exact ⟨locators_of_filled h, getLast?_locators h, exactText_not_mem_dropLast _⟩

/-- There may be as many as thirty-four. -/
example : (locators " #search button ").length = 34 := by decide +kernel

end StepRunner
