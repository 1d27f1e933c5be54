import StepRunner.Proofs.Step.Quotation
import StepRunner.Proofs.Step.Reading
import StepRunner.Proofs.Step.Words

/-!
# Which action a sentence asks for

The families of trigger words have an order, and the first of them that has a word in the sentence gives the
action. What the sentence says beside counts only where none of them has one.

* `Family.find?_eq_some_iff`, `Family.find?_eq_none_iff`: the family that is found is the first with a word that
  stands in the text;
* `Family.standsIn_append_cons_iff`, `Family.standsIn_iff_exists_part`, `Family.standsIn_iff_hasForm`: the words of
  a family in the parts of a text;
* `fallback_target`: what a sentence without trigger words is a click on;
* `classified_or_too_much`: every sentence has the action of its first family, or is a click without one, unless
  it asks to wait for an amount of time that cannot be told.
-/

namespace StepRunner

namespace Step

open Text

variable {word : String} {c d : Char} {x y cs target : List Char} {f g : Family} {step : ParsedStep}

/-! ## 1. Families -/

/-- A trigger word of the family stands in the text. -/
def Family.StandsIn (f : Family) (cs : List Char) : Prop := ∃ word ∈ f.triggers, Stands word cs

/-- The place of the family in the order in which they are tried. -/
def Family.rank (f : Family) : Nat := Family.all.idxOf f

/-- A trigger word of the family stands in the text, and none of a family before it. -/
structure Family.IsFirstIn (f : Family) (cs : List Char) : Prop where
  stands : f.StandsIn cs
  first : ∀ g : Family, g.rank < f.rank → ¬ g.StandsIn cs

theorem isKeyword_of_mem_triggers (f : Family) (h : word ∈ f.triggers) : IsKeyword word.toList := by
  revert word
  cases f <;> decide

theorem Family.hasTrigger_iff_standsIn : hasTrigger f.triggers cs = true ↔ f.StandsIn cs :=
  hasTrigger_iff_stands fun _ hword => isKeyword_of_mem_triggers f hword

theorem Family.mem_all (f : Family) : f ∈ Family.all := by
  cases f <;> decide

theorem Family.getElem?_rank (f : Family) : Family.all[f.rank]? = some f :=
  List.getElem?_idxOf (Family.mem_all f)

theorem Family.rank_getElem : ∀ i, (h : i < Family.all.length) → Family.all[i].rank = i := by
  decide

/-- **The family that is found** is the first with a trigger word in the text. -/
theorem Family.find?_eq_some_iff : Family.find? cs = some f ↔ f.IsFirstIn cs := by
  unfold Family.find?
  simp only [List.find?_eq_some_iff_getElem, hasTrigger_iff_standsIn, Bool.not_eq_true', ← Bool.not_eq_true]
  constructor
  · rintro ⟨hstands, i, hi, rfl, hnone⟩
    refine ⟨hstands, fun g hg => ?_⟩
    rw [Family.rank_getElem] at hg
    have hrank : Family.all[g.rank] = g := Option.some.inj ((List.getElem?_eq_getElem _).symm.trans g.getElem?_rank)
    rw [← hrank]
    exact hnone g.rank hg
  · rintro ⟨hstands, hfirst⟩
    obtain ⟨hi, hf⟩ := List.getElem?_eq_some_iff.mp f.getElem?_rank
    refine ⟨hstands, f.rank, hi, hf, fun j hj => hfirst _ ?_⟩
    rwa [Family.rank_getElem]

theorem Family.find?_eq_none_iff : Family.find? cs = none ↔ ∀ f : Family, ¬ f.StandsIn cs := by
  unfold Family.find?
  simp only [List.find?_eq_none, hasTrigger_iff_standsIn, Family.mem_all, true_imp_iff]

/-! ## 2. Parts of a text -/

/-- In front of a space of a trigger word stands one letter only. -/
theorem eq_of_before_space (hword : word ∈ f.triggers) (h : [d, ' '] <:+: word.toList) : d = 'o' := by
  have hwords : ∀ f ∈ Family.all, ∀ word ∈ f.triggers,
      word.toList.all (fun d => decide ([d, ' '] <:+: word.toList → d = 'o')) = true := by
    decide +kernel
  exact of_decide_eq_true (List.all_eq_true.mp (hwords f f.mem_all word hword) d (h.subset List.mem_cons_self)) h

theorem Family.not_standsIn_nil (f : Family) : ¬ f.StandsIn [] := fun ⟨_, hword, h⟩ =>
  not_stands_nil (isKeyword_of_mem_triggers f hword) h

/-- **A character that is in no word** parts a text, unless it is a blank behind an o. -/
theorem Family.standsIn_append_cons_iff (hc : isWord c = false)
    (hx : isBlank c = true → ∀ d ∈ x.getLast?, isBlank d = false ∧ fold d ≠ 'o') :
    f.StandsIn (x ++ c :: y) ↔ f.StandsIn x ∨ f.StandsIn y := by
  have hparts {word : String} (hword : word ∈ f.triggers) :
      Stands word (x ++ c :: y) ↔ Stands word x ∨ Stands word y := by
    refine stands_append_cons_iff (isKeyword_of_mem_triggers f hword) hc fun hblank d hd => ?_
    obtain ⟨hsolid, hne⟩ := hx hblank d hd
    exact ⟨hsolid, fun h => hne (eq_of_before_space hword h)⟩
  have hwords := exists_congr fun word => and_congr_right fun hword : word ∈ f.triggers => hparts hword
  exact hwords.trans (by simp only [Family.StandsIn, and_or_left, exists_or])

/-- **A character that is neither in a word nor a blank** leaves the words to the parts that it separates. -/
theorem Family.standsIn_iff_exists_part (hc : isWord c = false) (hblank : isBlank c = false) :
    f.StandsIn cs ↔ ∃ part ∈ splitOn c cs, f.StandsIn part := by
  induction cs using parts_induction c with
  | last x hx => simp only [splitOn_of_not_mem hx, List.mem_singleton, exists_eq_left]
  | part x y hx ih =>
      have hsplit : f.StandsIn (x ++ c :: y) ↔ f.StandsIn x ∨ f.StandsIn y :=
        standsIn_append_cons_iff hc fun h => absurd (hblank.symm.trans h) nofun
      rw [hsplit, ih, splitOn_append_cons hx, List.exists_mem_cons_iff]

/-- The text is a trigger word of the family, bare or inflected. -/
def Family.HasForm (f : Family) (cs : List Char) : Prop :=
  ∃ word ∈ f.triggers, ∃ e ∈ inflections, cs = word.toList ++ e.toList

instance (f : Family) (cs : List Char) : Decidable (f.HasForm cs) :=
  inferInstanceAs (Decidable (∃ word ∈ f.triggers, ∃ e ∈ inflections, cs = word.toList ++ e.toList))

/-- **In a text of small letters without a boundary** no trigger word stands but the whole of it. -/
theorem Family.standsIn_iff_hasForm (hcs : ∀ c ∈ cs, isWord c = true) (hsmall : cs.map fold = cs) :
    f.StandsIn cs ↔ f.HasForm cs :=
  exists_congr fun _ => and_congr_right fun hword =>
    stands_iff_eq_append (isKeyword_of_mem_triggers f hword) hcs hsmall

/-! ## 3. Sentences -/

/-- The target of a sentence without trigger words: the first text that it quotes, or the whole of it where that is
    blank or there is none. -/
def FallsBackOn (cs target : List Char) : Prop :=
  FirstQuoted cs target ∧ allBlank target = false ∨
    (∀ body, FirstQuoted cs body → allBlank body = true) ∧ target = cs

theorem fallback_target (cs : List Char) : ∃ target, FallsBackOn cs target ∧
    fallback cs = { action := .click, sentence := String.ofList cs, target := some (String.ofList target) } := by
  refine ⟨(quotedText? cs).getD cs, ?_, rfl⟩
  cases hquoted : quotedText? cs with
  | some body => exact .inl (quotedText?_eq_some_iff.mp hquoted)
  | none =>
      refine .inr ⟨fun body hfirst => ?_, rfl⟩
      by_contra hblank
      rw [quotedText?_eq_some_iff.mpr ⟨hfirst, Bool.eq_false_iff.mpr hblank⟩] at hquoted
      cases hquoted

theorem action_of_parseAs (h : parseAs f cs = .ok step) : step.action = f.action := by
  cases f with
  | wait =>
      rw [parseAs.eq_def] at h
      cases hamount : amount? cs with
      | error fault =>
          rw [hamount] at h
          cases h
      | ok t =>
          rw [hamount] at h
          cases h
          rfl
  | navigate | click | type | assert | select | scroll | hover =>
      cases h
      rfl

theorem parseTrimmed_of_find? (h : Family.find? (lower cs) = some f) : parseTrimmed cs = parseAs f cs := by
  rw [parseTrimmed, h]

/-- **Every sentence has the action** of the first family with a trigger word that stands in it in lower case,
    without blanks at its ends, and is a click where there is none; only a sentence that asks to wait for too much
    is no step at all. -/
theorem classified_or_too_much (text : String) :
    (∃ f : Family, f.IsFirstIn (lower (trim text.toList)) ∧
      ((∃ step, parseStep text = .ok step ∧ step.action = f.action) ∨
        f = .wait ∧ AsksTooMuch (trim text.toList) ∧ parseStep text = .error .amountTooLarge)) ∨
    (∀ f : Family, ¬ f.StandsIn (lower (trim text.toList))) ∧
      ∃ target, FallsBackOn (trim text.toList) target ∧ parseStep text = .ok
        { action := .click
          sentence := String.ofList (trim text.toList)
          target := some (String.ofList target) } := by
  unfold parseStep
  generalize trim text.toList = cs
  cases hfind : Family.find? (lower cs) with
  | none =>
      obtain ⟨target, htarget, hstep⟩ := fallback_target cs
      refine .inr ⟨Family.find?_eq_none_iff.mp hfind, target, htarget, ?_⟩
      rw [parseTrimmed, hfind, ← hstep]
  | some f =>
      refine .inl ⟨f, Family.find?_eq_some_iff.mp hfind, ?_⟩
      rcases parseTrimmed_cases cs with ⟨hmuch, herror⟩ | ⟨-, step, hstep, -⟩
      · exact .inr ⟨Option.some.inj (hfind.symm.trans hmuch.1), hmuch, herror⟩
      · rw [parseTrimmed_of_find? hfind] at hstep ⊢
        exact .inl ⟨step, hstep, action_of_parseAs hstep⟩

/-- A trigger inside a longer word does not count. -/
example : parseStep "prototype banner" = .ok
    { action := .click, sentence := "prototype banner", target := some "prototype banner" } := by
  decide +kernel

end Step

end StepRunner
