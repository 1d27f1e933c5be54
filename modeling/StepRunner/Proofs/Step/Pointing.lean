import StepRunner.Proofs.Step.Address
import StepRunner.Proofs.Step.Classification

/-!
# Clicks on a name

A name with a mark in front is a selector, and a sentence that clicks on it is a click on just that selector. But
trigger words count wherever they stand, so also between the hyphens of the name, and those of a navigation come
before those of a click.

* `standsIn_lower_iff`: a family has a word in a name where a part between hyphens is one of its words, bare or
  inflected;
* `standsIn_lower_clickOn`: the sentence has the words of a click and those of the name;
* `parseStep_clickOn`: it is a click on the name with its mark, unless the name asks to navigate.
-/

namespace StepRunner

namespace Step

open Text

variable {mark : Char} {name : List Char} {f : Family}

/-! ## 1. Names in lower case -/

theorem lowered_ascii : ∀ c : Char, c.toNat < 0x80 → (isAsciiWord c || c == '-') = true →
    (lowerChar c ≠ '-' → isWord (lowerChar c) = true) ∧ fold (lowerChar c) = lowerChar c :=
  forall_ascii (by decide +kernel)

/-- The characters of a name in lower case are hyphens and characters of words, and fold to themselves. -/
theorem IsName.lowered (h : IsName name) : ∀ c ∈ lower name, (c ≠ '-' → isWord c = true) ∧ fold c = c := by
  intro c hc
  rw [lower_ascii h.ascii] at hc
  obtain ⟨d, hd, rfl⟩ := List.mem_map.mp hc
  exact lowered_ascii d (h.ascii d hd) (List.all_eq_true.mp h.chars d hd)

theorem isWord_hyphen : isWord '-' = false := by decide +kernel

/-- **A family has a word in a name** where a part between hyphens is the word, bare or inflected. -/
theorem standsIn_lower_iff (h : IsName name) : f.StandsIn (lower name) ↔
    ∃ part ∈ splitOn '-' (lower name), f.HasForm part := by
  rw [Family.standsIn_iff_exists_part isWord_hyphen rfl]
  refine exists_congr fun part => and_congr_right fun hmem => Family.standsIn_iff_hasForm (fun c hc => ?_) ?_
  · obtain ⟨hin, hne⟩ := mem_of_mem_splitOn hmem hc
    exact (h.lowered c hin).1 hne
  · have hfold : ∀ c ∈ part, fold c = id c := fun c hc => (h.lowered c (mem_of_mem_splitOn hmem hc).1).2
    rw [List.map_congr_left hfold, List.map_id]

/-! ## 2. Sentences that click on a name -/

/-- The sentence that clicks on a name with a mark in front. -/
def clickOn (mark : Char) (name : List Char) : List Char := "click".toList ++ ' ' :: mark :: name

/-- Between hyphens of the name stands a word that asks to navigate. -/
def AsksToNavigate (name : List Char) : Prop := ∃ part ∈ splitOn '-' (lower name), Family.navigate.HasForm part

instance (name : List Char) : Decidable (AsksToNavigate name) :=
  inferInstanceAs (Decidable (∃ part ∈ splitOn '-' (lower name), Family.navigate.HasForm part))

theorem lower_clickOn (hname : IsName name) (hmark : mark = '#' ∨ mark = '.') :
    lower (clickOn mark name) = "click".toList ++ ' ' :: mark :: lower name := by
  have hclick : lower "click".toList = "click".toList := by decide +kernel
  have hmarked : lower (mark :: name) = mark :: lower name := by
    rw [lower_ascii, lower_ascii hname.ascii, List.map_cons]
    · rcases hmark with rfl | rfl <;> rfl
    · refine List.forall_mem_cons.mpr ⟨?_, hname.ascii⟩
      rcases hmark with rfl | rfl <;> decide
  rw [clickOn, lower_append_blank (by decide), hclick, hmarked]

/-- **The words of the sentence** are those of a click and those of the name. -/
theorem standsIn_lower_clickOn (hname : IsName name) (hmark : mark = '#' ∨ mark = '.') :
    f.StandsIn (lower (clickOn mark name)) ↔ f.StandsIn "click".toList ∨ f.StandsIn (lower name) := by
  have hplain : isWord mark = false ∧ isBlank mark = false := by
    rcases hmark with rfl | rfl <;> decide +kernel
  have hlast : ∀ d ∈ "click".toList.getLast?, isBlank d = false ∧ fold d ≠ 'o' := by
    intro d hd
    obtain rfl := Option.some.inj hd
    exact ⟨rfl, by decide⟩
  have hmarked : f.StandsIn ([] ++ mark :: lower name) ↔ f.StandsIn [] ∨ f.StandsIn (lower name) :=
    Family.standsIn_append_cons_iff hplain.1 fun h => absurd (hplain.2.symm.trans h) nofun
  rw [lower_clickOn hname hmark, Family.standsIn_append_cons_iff rfl fun _ => hlast,
    ← List.nil_append (mark :: lower name), hmarked, or_iff_right f.not_standsIn_nil]

theorem selector?_clickOn (hname : IsName name) (hmark : mark = '#' ∨ mark = '.') :
    selector? (clickOn mark name) = some (mark :: name) := by
  have htake : name.takeWhile isNameChar = name := List.takeWhile_eq_self_iff.mpr hname.nameChar
  have hhash : '#' ∉ name := hname.notMem (by decide +kernel)
  have hpoint : '.' ∉ name := hname.notMem (by decide +kernel)
  have hplace : clickOn mark name = "click ".toList ++ mark :: name := rfl
  rw [hplace]
  rcases hmark with rfl | rfl
  · exact (selector?_eq_marked_iff hname (by decide) hhash).mpr ⟨rfl, htake⟩
  · exact (selector?_eq_class_iff hname (by simp [hhash]) (by decide) hpoint).mpr ⟨rfl, htake⟩

theorem trim_clickOn (hname : IsName name) : trim (clickOn mark name) = clickOn mark name := by
  refine trim_eq_self_of_ends (fun c hc => ?_) fun c hc => ?_
  · obtain rfl := Option.some.inj hc
    rfl
  · have hplace : clickOn mark name = "click ".toList ++ [mark] ++ name := by simp [clickOn]
    rw [hplace, List.getLast?_append_of_ne_nil _ hname.ne_nil] at hc
    exact isBlank_eq_false_of_isNameChar (hname.nameChar c (List.mem_of_getLast? hc))

/-- A name asks to navigate, or the sentence is a click. -/
theorem find?_clickOn (hname : IsName name) (hmark : mark = '#' ∨ mark = '.') :
    (AsksToNavigate name → Family.find? (lower (clickOn mark name)) = some .navigate) ∧
      (¬ AsksToNavigate name → Family.find? (lower (clickOn mark name)) = some .click) := by
  have hnone : ¬ Family.navigate.StandsIn "click".toList := by
    rw [← Family.hasTrigger_iff_standsIn]
    decide +kernel
  have hclick : Family.click.StandsIn "click".toList := by
    rw [← Family.hasTrigger_iff_standsIn]
    decide +kernel
  have hnavigate : Family.navigate.StandsIn (lower (clickOn mark name)) ↔ AsksToNavigate name := by
    rw [standsIn_lower_clickOn hname hmark, or_iff_right hnone, standsIn_lower_iff hname, AsksToNavigate]
  constructor
  · intro hasks
    exact Family.find?_eq_some_iff.mpr ⟨hnavigate.mpr hasks, fun g hg => absurd hg (Nat.not_lt_zero _)⟩
  · intro hasks
    refine Family.find?_eq_some_iff.mpr ⟨(standsIn_lower_clickOn hname hmark).mpr (.inl hclick), fun g hg => ?_⟩
    -- only a navigation comes before a click
    obtain rfl : g = .navigate := by
      revert hg
      cases g <;> decide
    exact fun h => hasks (hnavigate.mp h)

/-- **A click on a name with its mark** is a click on just that, but where a part of the name between hyphens is
    a word that asks to navigate, it is a navigation. -/
theorem parseStep_clickOn (hname : IsName name) (hmark : mark = '#' ∨ mark = '.') :
    ∃ step, parseStep (String.ofList (clickOn mark name)) = .ok step ∧
      (AsksToNavigate name → step.action = .navigate) ∧
      (¬ AsksToNavigate name → step =
        { action := .click
          sentence := String.ofList (clickOn mark name)
          target := some (String.ofList (mark :: name)) }) := by
  obtain ⟨hnavigate, hclick⟩ := find?_clickOn hname hmark
  rw [parseStep, String.toList_ofList, trim_clickOn hname]
  by_cases hasks : AsksToNavigate name
  · rw [parseTrimmed_of_find? (hnavigate hasks)]
    exact ⟨_, rfl, fun _ => rfl, fun h => absurd hasks h⟩
  · rw [parseTrimmed_of_find? (hclick hasks)]
    refine ⟨_, rfl, fun h => absurd h hasks, fun _ => ?_⟩
    rw [pointedTarget?, selector?_clickOn hname hmark]
    rfl

/-- **A hyphen sets a word apart**, and an underscore does not. -/
theorem parseStep_clickOn_opened : IsName "re-Opened".toList ∧ AsksToNavigate "re-Opened".toList ∧
    (∃ step, parseStep "click #re-Opened" = .ok step ∧ step.action = .navigate) ∧
      IsName "open_menu-2".toList ∧ ¬ AsksToNavigate "open_menu-2".toList ∧
        parseStep "click .open_menu-2" = .ok
          { action := .click, sentence := "click .open_menu-2", target := some ".open_menu-2" } := by
  have hname : IsName "re-Opened".toList := by decide +kernel
  have hasks : AsksToNavigate "re-Opened".toList := by decide +kernel
  have hplain : IsName "open_menu-2".toList := by decide +kernel
  have hnever : ¬ AsksToNavigate "open_menu-2".toList := by decide +kernel
  obtain ⟨step, hstep, hnavigate, -⟩ := @parseStep_clickOn '#' _ hname (.inl rfl)
  obtain ⟨step', hstep', -, hclick⟩ := @parseStep_clickOn '.' _ hplain (.inr rfl)
  rw [hclick hnever] at hstep'
  exact ⟨hname, hasks, ⟨step, hstep, hnavigate hasks⟩, hplain, hnever, hstep'⟩

/-- Not every click on a name is a click. -/
theorem not_always_click : ¬ ∀ (mark : Char) (name : List Char), IsName name → mark = '#' ∨ mark = '.' →
    ∃ step, parseStep (String.ofList (clickOn mark name)) = .ok step ∧ step.action = .click ∧
      step.target = some (String.ofList (mark :: name)) := by
  intro h
  obtain ⟨step, hstep, hclick, -⟩ := h '#' "open".toList (by decide +kernel) (.inl rfl)
  have hopen : parseStep (String.ofList (clickOn '#' "open".toList)) =
      .ok { action := .navigate, sentence := "click #open" } := by decide +kernel
  rw [hopen] at hstep
  cases hstep
  cases hclick

end Step

end StepRunner
