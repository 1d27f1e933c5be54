import Mathlib.Data.List.Infix
import Mathlib.Data.List.TakeWhile
import StepRunner.Text.LowerCase

/-!
# Lower case of a part of a text

A character has the same lower-case form wherever it stands, but for the capital sigma, which has another at the end of
a word. So a text may come to something else as a part of a longer one: `lowerIn` is what it comes to there, and
`SigmaTurns` says of which of its sigmas it depends.

* `lowerIn_eq_lower_iff`: a part comes to its own lower-case form exactly if no sigma in it turns;
* `SigmaTurns.hasOpenSigma`: the texts with a sigma that turns in some place have an open one (`HasOpenSigma`);
* `HasOpenSigma.exists_lower_lost`: for each of these there is a text that has it as a part, and its lower-case form
  nowhere in lower case;
* `lower_infix_iff`: so the texts without are those that are found, in lower case, in every text that has them.
-/

namespace StepRunner.Text

variable {c : Char} {before following acc front back u v cs : List Char}

/-! ## 1. Parts of a text -/

/-- The lower-case form of a text between the reversed text before it and the text after it. -/
def lowerIn (before : List Char) : List Char → List Char → List Char
  | [], _ => []
  | c :: rest, following => lowerBetween before c (rest ++ following) ++ lowerIn (c :: before) rest following

theorem lowerFrom_append (before cs following : List Char) : lowerFrom before (cs ++ following) =
    lowerIn before cs following ++ lowerFrom (cs.reverse ++ before) following := by
  induction cs generalizing before with
  | nil => rfl
  | cons c cs ih =>
      rw [List.cons_append, lowerFrom, lowerIn, ih, List.append_assoc, List.reverse_cons, List.append_assoc]
      rfl

theorem lowerIn_append (before cs more following : List Char) : lowerIn before (cs ++ more) following =
    lowerIn before cs (more ++ following) ++ lowerIn (cs.reverse ++ before) more following := by
  induction cs generalizing before with
  | nil => rfl
  | cons c cs ih =>
      rw [List.cons_append, lowerIn, lowerIn, ih, List.append_assoc, List.append_assoc, List.reverse_cons,
        List.append_assoc]
      rfl

theorem lowerIn_nil_right (before cs : List Char) : lowerIn before cs [] = lowerFrom before cs := by
  induction cs generalizing before with
  | nil => rfl
  | cons c cs ih => rw [lowerIn, lowerFrom, ih, List.append_nil]

/-- A part of a text in lower case stands in the text in lower case. -/
theorem lowerIn_infix (front cs back : List Char) : lowerIn front.reverse cs back <:+: lower (front ++ cs ++ back) := by
  refine ⟨lowerIn [] front (cs ++ back), lowerFrom ((front ++ cs).reverse) back, ?_⟩
  rw [lower, lowerFrom_append, lowerIn_append, List.append_nil, List.append_nil]

/-! ## 2. Sigmas that end a word -/

/-- A capital sigma between the reversed text before it and the text after it ends a word. -/
def EndsWord (before following : List Char) : Prop := facesCased before = true ∧ facesCased following = false

instance : Decidable (EndsWord before following) := inferInstanceAs (Decidable (_ ∧ _))

theorem lowerBetween_sigma (before following : List Char) : lowerBetween before '\u03A3' following =
    if EndsWord before following then ['\u03C2'] else ['\u03C3'] := by
  rw [lowerBetween, if_pos rfl]
  refine if_congr ?_ rfl rfl
  rw [EndsWord, Bool.and_eq_true, Bool.not_eq_true']

theorem lowerBetween_of_ne (hc : c ≠ '\u03A3') (before following : List Char) :
    lowerBetween before c following = lowerBetween [] c [] := by
  rw [lowerBetween, lowerBetween, if_neg hc, if_neg hc]

/-- The form of a character is of one length, and the same in two places unless it is a sigma that ends a word in one of
    them. -/
theorem lowerBetween_eq_iff (c : Char) (before following before' following' : List Char) :
    (lowerBetween before c following).length = (lowerBetween before' c following').length ∧
      (lowerBetween before c following = lowerBetween before' c following' ↔
        (c = '\u03A3' → (EndsWord before following ↔ EndsWord before' following'))) := by
  by_cases hc : c = '\u03A3'
  · subst hc
    rw [lowerBetween_sigma, lowerBetween_sigma]
    by_cases h : EndsWord before following <;> by_cases h' : EndsWord before' following' <;> simp [h, h']
  · rw [lowerBetween_of_ne hc before, lowerBetween_of_ne hc before']
    exact ⟨rfl, iff_of_true rfl fun h => absurd h hc⟩

/-- What holds wherever a character stands in a text holds at its start and in the rest of it. -/
theorem forall_split_cons {d : Char} {P : List Char → List Char → Prop} : (∀ u v, c :: cs = u ++ d :: v → P u v) ↔
    (c = d → P [] cs) ∧ ∀ u v, cs = u ++ d :: v → P (c :: u) v := by
  constructor
  · intro h
    refine ⟨?_, ?_⟩
    · rintro rfl
      exact h [] cs rfl
    · rintro u v rfl
      exact h (c :: u) v rfl
  · rintro ⟨hfirst, hrest⟩ u v e
    cases u with
    | nil =>
        obtain ⟨rfl, rfl⟩ := List.cons.inj e
        exact hfirst rfl
    | cons c' u =>
        obtain ⟨rfl, e'⟩ := List.cons.inj e
        exact hrest u v e'

/-- **In two places** a text comes to the same exactly if every sigma in it ends a word in both or in neither. -/
theorem lowerIn_eq_iff (before following before' following' cs : List Char) :
    lowerIn before cs following = lowerIn before' cs following' ↔ ∀ u v, cs = u ++ '\u03A3' :: v →
      (EndsWord (u.reverse ++ before) (v ++ following) ↔ EndsWord (u.reverse ++ before') (v ++ following')) := by
  induction cs generalizing before before' with
  | nil => exact iff_of_true rfl fun u v e => by simp at e
  | cons c cs ih =>
      obtain ⟨hlength, hsame⟩ := lowerBetween_eq_iff c before (cs ++ following) before' (cs ++ following')
      have hparts : lowerBetween before c (cs ++ following) ++ lowerIn (c :: before) cs following =
          lowerBetween before' c (cs ++ following') ++ lowerIn (c :: before') cs following' ↔
          lowerBetween before c (cs ++ following) = lowerBetween before' c (cs ++ following') ∧
            lowerIn (c :: before) cs following = lowerIn (c :: before') cs following' :=
        ⟨fun h => List.append_inj h hlength, fun h => by rw [h.1, h.2]⟩
      rw [lowerIn, lowerIn, hparts, hsame, ih, forall_split_cons]
      simp only [List.reverse_nil, List.nil_append, List.reverse_cons, List.append_assoc, List.singleton_append]

/-- A capital sigma of the text ends a word in the one place and not in the other: between two texts, and alone. -/
def SigmaTurns (front cs back : List Char) : Prop :=
  ∃ u v, cs = u ++ '\u03A3' :: v ∧ ¬ (EndsWord (u.reverse ++ front.reverse) (v ++ back) ↔ EndsWord u.reverse v)

/-- **A part of a text** comes to its own lower-case form exactly if none of its sigmas turns. -/
theorem lowerIn_eq_lower_iff : lowerIn front.reverse cs back = lower cs ↔ ¬ SigmaTurns front cs back := by
  rw [lower, ← lowerIn_nil_right, lowerIn_eq_iff, SigmaTurns]
  simp only [List.append_nil]
  push Not
  rfl

/-- Then this form is in that of the text. -/
theorem lower_infix_of_not_turns (h : ¬ SigmaTurns front cs back) : lower cs <:+: lower (front ++ cs ++ back) := by
  rw [← lowerIn_eq_lower_iff.mpr h]
  exact lowerIn_infix front cs back

theorem length_lowerIn (before following before' following' cs : List Char) :
    (lowerIn before cs following).length = (lowerIn before' cs following').length := by
  induction cs generalizing before before' with
  | nil => rfl
  | cons c cs ih =>
      rw [lowerIn, lowerIn, List.length_append, List.length_append, ih (c :: before) (c :: before'),
        (lowerBetween_eq_iff c before (cs ++ following) before' (cs ++ following')).1]

/-! ## 3. Texts with an open end -/

theorem facesCased_of_ignorable (h : ∀ c ∈ u, isCaseIgnorable c = true) (more : List Char) :
    facesCased (u ++ more) = facesCased more := by
  unfold facesCased
  rw [List.dropWhile_append_of_pos h]

theorem facesCased_append_of_not_ignorable (h : ¬ ∀ c ∈ u, isCaseIgnorable c = true) (more : List Char) :
    facesCased (u ++ more) = facesCased u := by
  have hfilled : u.dropWhile isCaseIgnorable ≠ [] := fun hnil => h (List.dropWhile_eq_nil_iff.mp hnil)
  obtain ⟨d, rest, hrest⟩ := List.exists_cons_of_ne_nil hfilled
  unfold facesCased
  rw [List.dropWhile_append, hrest]
  rfl

/-- A capital sigma with neither a letter in front of it nor one behind, and nothing in front but what is passed over;
    or one that ends a word, and nothing behind it but what is passed over. -/
def HasOpenSigma (cs : List Char) : Prop := ∃ u v, cs = u ++ '\u03A3' :: v ∧
  ((∀ c ∈ u, isCaseIgnorable c = true) ∧ facesCased v = false ∨
    facesCased u.reverse = true ∧ ∀ c ∈ v, isCaseIgnorable c = true)

theorem facesCased_eq_false_of_ignorable (h : ∀ c ∈ u, isCaseIgnorable c = true) : facesCased u = false := by
  have hnone := facesCased_of_ignorable h []
  rwa [List.append_nil] at hnone

/-- A text with a sigma that turns between other texts has an open end. -/
theorem SigmaTurns.hasOpenSigma (h : SigmaTurns front cs back) : HasOpenSigma cs := by
  obtain ⟨u, v, rfl, hturn⟩ := h
  refine ⟨u, v, rfl, ?_⟩
  by_cases hu : ∀ c ∈ u.reverse, isCaseIgnorable c = true
  · -- alone it ends no word, and between the others it does
    have halone : ¬ EndsWord u.reverse v := fun halone => by
      rw [EndsWord, facesCased_eq_false_of_ignorable hu] at halone
      exact Bool.false_ne_true halone.1
    have hends : EndsWord (u.reverse ++ front.reverse) (v ++ back) := by
      by_contra hnot
      exact hturn (iff_of_false hnot halone)
    refine .inl ⟨fun c hc => hu c (List.mem_reverse.mpr hc), ?_⟩
    by_cases hv : ∀ c ∈ v, isCaseIgnorable c = true
    · exact facesCased_eq_false_of_ignorable hv
    · rw [← facesCased_append_of_not_ignorable hv back]
      exact hends.2
  · -- what stands in front makes no difference, so what stands behind does
    rw [EndsWord, EndsWord, facesCased_append_of_not_ignorable hu] at hturn
    refine .inr ⟨?_, ?_⟩
    · by_contra hcaseless
      exact hturn (iff_of_false (fun h => hcaseless h.1) fun h => hcaseless h.1)
    · by_contra hv
      rw [facesCased_append_of_not_ignorable hv] at hturn
      exact hturn Iff.rfl

/-- One of two letters is not the given one. -/
theorem exists_letter_ne (c? : Option Char) :
    ∃ y, isCased y = true ∧ isCaseIgnorable y = false ∧ (∀ b f, lowerBetween b y f = [y]) ∧ c? ≠ some y := by
  by_cases h : c? = some 'a'
  · exact ⟨'b', by decide +kernel, by decide +kernel, fun _ _ => rfl, by rw [h]; decide⟩
  · exact ⟨'a', by decide +kernel, by decide +kernel, fun _ _ => rfl, h⟩

theorem facesCased_cons {y : Char} (hcased : isCased y = true) (hstops : isCaseIgnorable y = false) (rest : List Char) :
    facesCased (y :: rest) = true := by
  rw [facesCased, List.dropWhile_cons_of_neg (by simp [hstops])]
  exact hcased

/-- In front of a text that it makes another of, a letter that the text does not begin with leaves no room for it. -/
theorem lost_at_letter_front {y : Char} (hy : ∀ b f, lowerBetween b y f = [y]) (hhead : (lower cs).head? ≠ some y)
    (hfilled : lower cs ≠ []) (hturn : SigmaTurns [y] cs []) : ¬ lower cs <:+: lower ([y] ++ cs ++ []) := by
  have hlower : lower ([y] ++ cs ++ []) = y :: lowerIn [y] cs [] := by
    rw [lower, List.append_nil, lowerFrom_append, lowerIn, hy, lowerIn_nil_right]
    rfl
  rw [hlower, List.infix_cons_iff]
  rintro (hstart | hlater)
  · obtain ⟨d, rest, hrest⟩ := List.exists_cons_of_ne_nil hfilled
    rw [hrest] at hstart hhead
    exact hhead (congrArg some (List.cons_prefix_cons.mp hstart).1)
  · have hsame := hlater.eq_of_length (by rw [lower, ← lowerIn_nil_right]; exact length_lowerIn _ _ _ _ _)
    exact (lowerIn_eq_lower_iff.mp (show lowerIn [y].reverse cs [] = lower cs from hsame.symm)) hturn

/-- Behind it, a letter that the text does not end in does the same. -/
theorem lost_at_letter_back {y : Char} (hy : ∀ b f, lowerBetween b y f = [y]) (hlast : (lower cs).getLast? ≠ some y)
    (hfilled : lower cs ≠ []) (hturn : SigmaTurns [] cs [y]) : ¬ lower cs <:+: lower ([] ++ cs ++ [y]) := by
  have hlower : lower ([] ++ cs ++ [y]) = lowerIn [] cs [y] ++ [y] := by
    rw [lower, List.nil_append, lowerFrom_append, lowerFrom, hy, lowerFrom, List.append_nil]
  rw [hlower, List.infix_concat_iff]
  rintro (⟨more, hsuffix⟩ | hlater)
  · have hend := congrArg List.getLast? hsuffix
    rw [List.getLast?_append_of_ne_nil _ hfilled, List.getLast?_concat] at hend
    exact hlast hend
  · have hsame := hlater.eq_of_length (by rw [lower, ← lowerIn_nil_right]; exact length_lowerIn _ _ _ _ _)
    exact (lowerIn_eq_lower_iff.mp (show lowerIn [].reverse cs [y] = lower cs from hsame.symm)) hturn

/-- **A text with an open end** is a part of a text whose lower-case form does not have its own. -/
theorem HasOpenSigma.exists_lower_lost (h : HasOpenSigma cs) :
    ∃ front back, ¬ lower cs <:+: lower (front ++ cs ++ back) := by
  obtain ⟨u, v, rfl, hopen⟩ := h
  have hfilled : lower (u ++ '\u03A3' :: v) ≠ [] := by
    rw [lower, lowerFrom_append, lowerFrom, lowerBetween_sigma]
    split <;> simp
  rcases hopen with ⟨hu, hv⟩ | ⟨hu, hv⟩
  · obtain ⟨y, hcased, hstops, hlower, hhead⟩ := exists_letter_ne (lower (u ++ '\u03A3' :: v)).head?
    refine ⟨[y], [], lost_at_letter_front hlower hhead hfilled ⟨u, v, rfl, fun hsame => ?_⟩⟩
    have hu' : ∀ c ∈ u.reverse, isCaseIgnorable c = true := fun c hc => hu c (List.mem_reverse.mp hc)
    have hbetween : EndsWord (u.reverse ++ [y].reverse) (v ++ []) := by
      rw [EndsWord, facesCased_of_ignorable hu', List.append_nil]
      exact ⟨facesCased_cons hcased hstops [], hv⟩
    have halone := hsame.mp hbetween
    rw [EndsWord, facesCased_eq_false_of_ignorable hu'] at halone
    exact Bool.false_ne_true halone.1
  · obtain ⟨y, hcased, hstops, hlower, hlast⟩ := exists_letter_ne (lower (u ++ '\u03A3' :: v)).getLast?
    refine ⟨[], [y], lost_at_letter_back hlower hlast hfilled ⟨u, v, rfl, fun hsame => ?_⟩⟩
    have hbetween := hsame.mpr ⟨hu, facesCased_eq_false_of_ignorable hv⟩
    rw [EndsWord, facesCased_of_ignorable hv, facesCased_cons hcased hstops] at hbetween
    exact Bool.false_ne_true hbetween.2.symm

/-- **Which texts stand in lower case wherever they stand**: those without an open end. -/
theorem lower_infix_iff : (∀ front back, lower cs <:+: lower (front ++ cs ++ back)) ↔ ¬ HasOpenSigma cs := by
  constructor
  · intro h hopen
    obtain ⟨front, back, hnot⟩ := hopen.exists_lower_lost
    exact hnot (h front back)
  · exact fun h front back => lower_infix_of_not_turns fun hturn => h hturn.hasOpenSigma

/-- The first word of a name is not found in the name. -/
example : ¬ lower "ΟΔΥΣ".toList <:+: lower "ΟΔΥΣΣΕΑΣ".toList := by decide +kernel

end StepRunner.Text
