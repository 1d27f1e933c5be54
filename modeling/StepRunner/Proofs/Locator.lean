import StepRunner.Locator
import StepRunner.Proofs.Text.Trim

/-!
# The candidates of a phrase

* `nodup_locators`: no phrase has the same candidate twice;
* `locators_eq_nil_iff`: every phrase has a candidate, unless it is blank.
-/

namespace StepRunner

open Text

variable {cs item : List Char} {seen items : List (List Char)} {phrase : String}

namespace Locator

/-- What is kept of a list is all of it that is neither empty nor was seen before. -/
theorem mem_eachOnce : item ∈ eachOnce seen items ↔ item ∈ items ∧ item ≠ [] ∧ item ∉ seen := by
  induction items generalizing seen with
  | nil => exact iff_of_false List.not_mem_nil fun h => List.not_mem_nil h.1
  | cons first rest ih =>
      rw [eachOnce, List.mem_cons]
      split
      · next hskip =>
          have hfirst : first = [] ∨ first ∈ seen := by simpa using hskip
          rw [ih]
          refine ⟨fun h => ⟨.inr h.1, h.2⟩, fun ⟨hmem, hfilled, hfresh⟩ => ⟨hmem.resolve_left ?_, hfilled, hfresh⟩⟩
          rintro rfl
          exact hfirst.elim hfilled hfresh
      · next hkeep =>
          have hfirst : first ≠ [] ∧ first ∉ seen := by simpa using hkeep
          rw [List.mem_cons, ih, List.mem_cons, not_or]
          by_cases heq : item = first
          · subst heq
            exact iff_of_true (.inl rfl) ⟨.inl rfl, hfirst⟩
          · simp only [heq, not_false_eq_true, true_and, false_or]

theorem nodup_eachOnce (seen items : List (List Char)) : (eachOnce seen items).Nodup := by
  induction items generalizing seen with
  | nil => exact .nil
  | cons item rest ih =>
      rw [eachOnce]
      split
      · exact ih seen
      · exact List.nodup_cons.mpr ⟨fun h => (mem_eachOnce.mp h).2.2 List.mem_cons_self, ih _⟩

theorem exactText_mem_candidates (cs : List Char) : exactText cs ∈ candidates cs :=
  List.mem_append_right _ (List.mem_singleton.mpr rfl)

theorem exactText_ne_nil (cs : List Char) : exactText cs ≠ [] :=
  List.append_ne_nil_of_right_ne_nil _ (List.append_ne_nil_of_left_ne_nil (List.cons_ne_nil _ _) _)

end Locator

/-- No phrase has the same candidate twice. -/
theorem nodup_locators (phrase : String) : (locators phrase).Nodup := by
  unfold locators
  dsimp only
  split
  · exact .nil
  · exact List.Pairwise.map String.ofList (fun _ _ hne h => hne (String.ofList_injective h)) (Locator.nodup_eachOnce _ _)

/-- **Every phrase has a candidate**, unless it is blank. -/
theorem locators_eq_nil_iff : locators phrase = [] ↔ allBlank phrase.toList = true := by
  rw [← trim_eq_nil_iff]
  unfold locators
  constructor
  · intro h
    by_contra hfilled
    rw [if_neg (by simpa using hfilled), List.map_eq_nil_iff] at h
    have hlast := Locator.mem_eachOnce.mpr
      ⟨Locator.exactText_mem_candidates (trim phrase.toList), Locator.exactText_ne_nil _, List.not_mem_nil⟩
    rw [h] at hlast
    cases hlast
  · intro h
    rw [h]
    rfl

end StepRunner
