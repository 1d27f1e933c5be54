import Mathlib.Data.List.Basic
import StepRunner.Text.LowerCase

/-!
# What lower case keeps of a character

A character and its lower-case form are read alike (`Alike`): a character of a word stays one, a blank
stays a blank and nothing becomes one, and a form that stands for a letter of ASCII comes from a
character that stands for it too. The one exception is the dotted capital i, whose form has a second
character, the combining dot.

* `lowerRuns_plain`: all that has to be looked up in the tables;
* `exists_alike`: the form of every character but one;
* `lowerFrom_cons`, `lowerFrom_dotted`: a lower-case text, one character after the other;
* `lowerFrom_append_blank`: a blank keeps two texts apart, since it is neither cased nor passed over.
-/

namespace StepRunner.Text

open Tables

variable {c d : Char} {n m : Nat}

/-! ## 1. The table of lower-case forms -/

/-- All code points from `low` to `high` lie in one of the ranges. -/
def liesIn (ranges : List (Nat × Nat)) (low high : Nat) : Bool :=
  ranges.any fun r => r.1 ≤ low && high ≤ r.2

/-- No code point from `low` to `high` lies in one of the ranges. -/
def liesOutside (ranges : List (Nat × Nat)) (low high : Nat) : Bool :=
  ranges.all fun r => high < r.1 || r.2 < low

/-- ASCII, the blanks above it, and the four characters above it that fold to a letter. -/
def specialRanges : List (Nat × Nat) :=
  [(0, 0x7F), (0x85, 0x85), (0xA0, 0xA0), (0x130, 0x131), (0x17F, 0x17F), (0x1680, 0x1680),
    (0x2000, 0x200A), (0x2028, 0x2029), (0x202F, 0x202F), (0x205F, 0x205F), (0x212A, 0x212A),
    (0x3000, 0x3000)]

/-- Neither the characters of a run nor their forms are special, and the forms are characters of a
    word where a character is. -/
def LowerRun.isPlain (run : LowerRun) : Bool :=
  let high := run.image + (run.last - run.first)
  (high < 0xD800 || 0xDFFF < run.image && high < 0x110000) &&
    liesOutside specialRanges run.first run.last && liesOutside specialRanges run.image high &&
    (liesIn wordRanges run.image high || liesOutside wordRanges run.first run.last)

theorem decide_le (n m : Nat) : decide (n ≤ m) = Nat.ble n m := by
  cases h : Nat.ble n m with
  | true => exact decide_eq_true (Nat.le_of_ble_eq_true h)
  | false => exact decide_eq_false (Nat.not_le_of_not_ble_eq_true (by simp [h]))

-- the tables are long, and these are the searches in the form that is computed fastest

theorem liesIn_eq (ranges : List (Nat × Nat)) (low high : Nat) : liesIn ranges low high =
    List.rec false (fun r _ found => (Nat.ble r.1 low && Nat.ble high r.2) || found) ranges := by
  simp only [liesIn, decide_le]
  induction ranges with
  | nil => rfl
  | cons r rest ih => rw [List.any_cons, ih]

theorem liesOutside_eq (ranges : List (Nat × Nat)) (low high : Nat) : liesOutside ranges low high =
    ranges.all fun r => Nat.ble (high + 1) r.1 || Nat.ble (r.2 + 1) low := by
  simp only [liesOutside, Nat.lt_iff_add_one_le, decide_le]

/-- The run of the Kelvin sign alone leads back to ASCII. -/
theorem lowerRuns_plain :
    (lowerRuns.all fun run => LowerRun.isPlain run ||
      (run.first == 0x212A && run.last == 0x212A && run.image == 0x6B)) = true := by
  simp only [LowerRun.isPlain, liesIn_eq, liesOutside_eq]
  decide +kernel

theorem between_of_liesOutside {ranges : List (Nat × Nat)} {low high : Nat}
    (h : liesOutside ranges low high = true) (hl : low ≤ n) (hh : n ≤ high) :
    inRanges ranges n = false := by
  unfold inRanges
  rw [List.any_eq_false]
  intro r hr hin
  have h := List.all_eq_true.mp h r hr
  simp only [Bool.or_eq_true, Bool.and_eq_true, decide_eq_true_eq] at h hin
  omega

theorem between_of_liesIn {ranges : List (Nat × Nat)} {low high : Nat}
    (h : liesIn ranges low high = true) (hl : low ≤ n) (hh : n ≤ high) :
    inRanges ranges n = true := by
  obtain ⟨r, hr, hin⟩ := List.any_eq_true.mp h
  refine List.any_eq_true.mpr ⟨r, hr, ?_⟩
  simp only [Bool.and_eq_true, decide_eq_true_eq] at hin ⊢
  omega

/-- **What the table says** of a character above ASCII that has a form. -/
theorem image_spec (h : lowerRuns.findSome? (·.image? n) = some m) :
    n = 0x212A ∧ m = 0x6B ∨
      m.isValidChar ∧ inRanges specialRanges n = false ∧ inRanges specialRanges m = false ∧
        (inRanges wordRanges n = true → inRanges wordRanges m = true) := by
  obtain ⟨run, hrun, hm⟩ := List.exists_of_findSome?_eq_some h
  have hplain := List.all_eq_true.mp lowerRuns_plain run hrun
  unfold LowerRun.image? at hm
  split at hm
  · next hn =>
      obtain rfl : run.image + (n - run.first) = m := Option.some.inj hm
      rcases Bool.or_eq_true_iff.mp hplain with hp | hk
      · simp only [LowerRun.isPlain, Bool.and_eq_true] at hp
        obtain ⟨⟨⟨hv, hf⟩, hi⟩, hw⟩ := hp
        simp only [Bool.or_eq_true, Bool.and_eq_true, decide_eq_true_eq] at hv
        refine .inr ⟨?_, between_of_liesOutside hf hn.1 hn.2.1,
          between_of_liesOutside hi (by omega) (by omega), fun hword => ?_⟩
        · unfold Nat.isValidChar
          omega
        rcases Bool.or_eq_true_iff.mp hw with hw | hw
        · exact between_of_liesIn hw (by omega) (by omega)
        · rw [between_of_liesOutside hw hn.1 hn.2.1] at hword
          cases hword
      · simp only [Bool.and_eq_true, beq_iff_eq] at hk
        exact .inl (by omega)
  · cases hm

/-! ## 2. Characters that are read alike -/

theorem ascii_of_le (h : c ≤ d) (hd : d.toNat < 0x80) : c.toNat < 0x80 := Nat.lt_of_le_of_lt h hd

/-- What holds of the first 128 code points holds of every character of ASCII. -/
theorem forall_ascii {p : Char → Prop} (h : ∀ n < 0x80, p (Char.ofNat n)) : ∀ c : Char, c.toNat < 0x80 → p c := by
  intro c hc
  have hcode := h c.toNat hc
  rwa [Char.ofNat_toNat] at hcode

/-- A form is read like the character: as part of a word, as a blank, and as a letter of ASCII. -/
structure Alike (c d : Char) : Prop where
  word : isWord c = true → isWord d = true
  blank : isBlank d = isBlank c
  letter : foldsToLetter d = true → fold d = fold c

theorem Alike.refl (c : Char) : Alike c c := ⟨id, rfl, fun _ => rfl⟩

theorem toNat_ofNat (h : n.isValidChar) : (Char.ofNat n).toNat = n := by
  unfold Char.ofNat
  rw [dif_pos h]
  rfl

theorem isBlank_of_special (h : inRanges specialRanges c.toNat = false) : isBlank c = false := by
  simp only [inRanges, specialRanges, List.any_cons, List.any_nil, Bool.or_false,
    Bool.or_eq_false_iff, Bool.and_eq_false_iff, decide_eq_false_iff_not] at h
  simp only [isBlank, Bool.or_eq_false_iff, Bool.and_eq_false_iff, decide_eq_false_iff_not,
    beq_eq_false_iff_ne]
  omega

theorem foldsToLetter_of_special (h : inRanges specialRanges c.toNat = false) :
    foldsToLetter c = false := by
  have hc {x : Char} (hx : inRanges specialRanges x.toNat = true) : c ≠ x := by
    rintro rfl
    rw [h] at hx
    cases hx
  have hascii : ¬ c.toNat ≤ 0x7F := by
    simp only [inRanges, specialRanges, List.any_cons, Bool.or_eq_false_iff, Bool.and_eq_false_iff,
      decide_eq_false_iff_not] at h
    omega
  have hle {x y : Char} (hy : y.toNat ≤ 0x7F) : ¬ (x ≤ c ∧ c ≤ y) := fun hxy =>
    hascii (Nat.le_trans hxy.2 hy)
  have hfold : fold c = c := by
    unfold fold
    rw [if_neg (hle (by decide)), if_neg, if_neg, if_neg]
    · exact hc (by decide)
    · exact hc (by decide)
    · exact not_or.mpr ⟨hc (by decide), hc (by decide)⟩
  unfold foldsToLetter
  rw [hfold, ← Bool.not_eq_true, Bool.and_eq_true, decide_eq_true_eq, decide_eq_true_eq]
  exact hle (by decide)

/-- The lower-case forms of ASCII. -/
theorem alike_ascii : ∀ c : Char, c.toNat < 0x80 → (isWord c = true → isWord (lowerChar c) = true) ∧
    isBlank (lowerChar c) = isBlank c ∧ (foldsToLetter (lowerChar c) = true → fold (lowerChar c) = fold c) :=
  forall_ascii (by decide +kernel)

/-- **The one-character form** is read like the character. -/
theorem alike_lowerChar (c : Char) : Alike c (lowerChar c) := by
  by_cases hc : c.toNat < 0x80
  · obtain ⟨hword, hblank, hletter⟩ := alike_ascii c hc
    exact ⟨hword, hblank, hletter⟩
  · unfold lowerChar
    simp only [if_neg hc]
    cases hm : lowerRuns.findSome? (·.image? c.toNat) with
    | none => exact .refl c
    | some m =>
        rcases image_spec hm with ⟨hk, rfl⟩ | ⟨hv, hc', hs, hw⟩
        · obtain rfl : c = '\u212A' := Char.toNat_inj.mp hk
          exact ⟨fun _ => rfl, by decide, by decide⟩
        · rw [← toNat_ofNat hv] at hs
          have hfar : ∀ {n}, inRanges specialRanges n = false → ¬ n < 0x80 := fun h hlt => by
            simp only [inRanges, specialRanges, List.any_cons, Bool.or_eq_false_iff,
              Bool.and_eq_false_iff, decide_eq_false_iff_not] at h
            omega
          refine ⟨fun hword => ?_, ?_, fun hl => ?_⟩
          · unfold isWord at hword ⊢
            rw [if_neg hc] at hword
            rw [if_neg (hfar hs), toNat_ofNat hv]
            exact hw hword
          · rw [isBlank_of_special hs, isBlank_of_special hc']
          · rw [foldsToLetter_of_special hs] at hl
            cases hl

/-- **The form of a character** is one that is read like it, but for the dotted capital i. -/
theorem exists_alike (before following : List Char) (hc : c ≠ '\u0130') :
    ∃ d, lowerBetween before c following = [d] ∧ Alike c d := by
  unfold lowerBetween
  by_cases hs : c = '\u03A3'
  · subst hs
    have hword : isWord '\u03C2' = true ∧ isWord '\u03C3' = true := by decide
    rw [if_pos rfl]
    split
    · exact ⟨_, rfl, fun _ => hword.1, by decide, by decide⟩
    · exact ⟨_, rfl, fun _ => hword.2, by decide, by decide⟩
  · rw [if_neg hs, if_neg hc]
    exact ⟨_, rfl, alike_lowerChar c⟩

/-! ## 3. Blanks -/

/-- The blanks of ASCII are of no word, have no case, end what is passed over, and are their own lower-case forms. -/
theorem blanks_ascii : ∀ c : Char, c.toNat < 0x80 → isBlank c = true →
    isWord c = false ∧ isCased c = false ∧ isCaseIgnorable c = false ∧ lowerChar c = c :=
  forall_ascii (by decide +kernel)

/-- The blanks above ASCII. -/
def blankRanges : List (Nat × Nat) :=
  [(0x85, 0x85), (0xA0, 0xA0), (0x1680, 0x1680), (0x2000, 0x200A), (0x2028, 0x2029),
    (0x202F, 0x202F), (0x205F, 0x205F), (0x3000, 0x3000)]

theorem blankRanges_outside : (blankRanges.all fun r => liesOutside wordRanges r.1 r.2) = true ∧
    (blankRanges.all fun r => liesOutside casedRanges r.1 r.2) = true ∧
    (blankRanges.all fun r => liesOutside caseIgnorableRanges r.1 r.2) = true := by
  simp only [liesOutside_eq]
  decide +kernel

theorem inRanges_eq_false_of_isBlank {ranges : List (Nat × Nat)}
    (houtside : (blankRanges.all fun r => liesOutside ranges r.1 r.2) = true) (h : isBlank c = true)
    (hc : ¬ c.toNat < 0x80) : inRanges ranges c.toNat = false := by
  have hin : inRanges blankRanges c.toNat = true := by
    simp only [isBlank, Bool.or_eq_true, Bool.and_eq_true, decide_eq_true_eq, beq_iff_eq] at h
    simp only [inRanges, blankRanges, List.any_cons, List.any_nil, Bool.or_eq_true,
      Bool.and_eq_true, decide_eq_true_eq, Bool.false_eq_true, or_false]
    omega
  obtain ⟨r, hr, hb⟩ := List.any_eq_true.mp hin
  simp only [Bool.and_eq_true, decide_eq_true_eq] at hb
  exact between_of_liesOutside (List.all_eq_true.mp houtside r hr) hb.1 hb.2

/-- No blank is a character of a word. -/
theorem isWord_eq_false_of_isBlank (h : isBlank c = true) : isWord c = false := by
  by_cases hc : c.toNat < 0x80
  · exact (blanks_ascii c hc h).1
  · unfold isWord
    rw [if_neg hc]
    exact inRanges_eq_false_of_isBlank blankRanges_outside.1 h hc

theorem isBlank_eq_false_of_isWord (h : isWord c = true) : isBlank c = false := by
  cases hblank : isBlank c with
  | false => rfl
  | true =>
      rw [isWord_eq_false_of_isBlank hblank] at h
      cases h

/-! ## 4. A lower-case text, one character after the other -/

theorem lowerFrom_dotted (acc cs : List Char) :
    lowerFrom acc ('\u0130' :: cs) = 'i' :: '\u0307' :: lowerFrom ('\u0130' :: acc) cs := rfl

theorem lowerFrom_cons (acc cs : List Char) (hc : c ≠ '\u0130') :
    ∃ d, lowerFrom acc (c :: cs) = d :: lowerFrom (c :: acc) cs ∧ Alike c d := by
  obtain ⟨d, hd, ha⟩ := exists_alike acc cs hc
  exact ⟨d, by rw [lowerFrom, hd]; rfl, ha⟩

/-- The blanks in front of a lower-case text are those of the text. -/
theorem dropWhile_lowerFrom (acc cs : List Char) :
    ∃ acc', (lowerFrom acc cs).dropWhile isBlank = lowerFrom acc' (cs.dropWhile isBlank) := by
  induction cs generalizing acc with
  | nil => exact ⟨acc, rfl⟩
  | cons c cs ih =>
      by_cases hc : c = '\u0130'
      · subst hc
        exact ⟨acc, rfl⟩
      · obtain ⟨d, hd, ha⟩ := lowerFrom_cons acc cs hc
        rw [hd, List.dropWhile_cons, List.dropWhile_cons, ha.blank]
        split
        · exact ih (c :: acc)
        · exact ⟨acc, hd.symm⟩

/-- In ASCII every character has its one-character form. -/
theorem lowerFrom_ascii {cs : List Char} (hcs : ∀ c ∈ cs, c.toNat < 0x80) (acc : List Char) :
    lowerFrom acc cs = cs.map lowerChar := by
  induction cs generalizing acc with
  | nil => rfl
  | cons c cs ih =>
      rw [List.forall_mem_cons] at hcs
      have hne {d : Char} (hd : 0x80 ≤ d.toNat) : c ≠ d := by
        rintro rfl
        exact Nat.not_le_of_lt hcs.1 hd
      rw [lowerFrom, lowerBetween, if_neg (hne (by decide)), if_neg (hne (by decide)), ih hcs.2]
      rfl

theorem lower_ascii {cs : List Char} (hcs : ∀ c ∈ cs, c.toNat < 0x80) : lower cs = cs.map lowerChar :=
  lowerFrom_ascii hcs []

/-! ## 5. Blanks between texts -/

/-- A blank has no case, ends what is passed over, and is its own lower-case form. -/
theorem caseless_of_isBlank (h : isBlank c = true) :
    isCased c = false ∧ isCaseIgnorable c = false ∧ lowerChar c = c := by
  by_cases hc : c.toNat < 0x80
  · exact (blanks_ascii c hc h).2
  · refine ⟨inRanges_eq_false_of_isBlank blankRanges_outside.2.1 h hc,
      inRanges_eq_false_of_isBlank blankRanges_outside.2.2 h hc, ?_⟩
    unfold lowerChar
    simp only [if_neg hc]
    cases hm : lowerRuns.findSome? (·.image? c.toNat) with
    | none => rfl
    | some m =>
        rcases image_spec hm with ⟨hk, -⟩ | ⟨-, hc', -⟩
        · obtain rfl : c = '\u212A' := Char.toNat_inj.mp hk
          cases h
        · rw [isBlank_of_special hc'] at h
          cases h

theorem lowerBetween_of_isBlank (h : isBlank c = true) (before following : List Char) :
    lowerBetween before c following = [c] := by
  have hne {d : Char} (hd : isBlank d = false) : c ≠ d := by
    rintro rfl
    rw [h] at hd
    cases hd
  rw [lowerBetween, if_neg (hne (by decide)), if_neg (hne (by decide)), (caseless_of_isBlank h).2.2]

theorem facesCased_append_blank (h : isBlank c = true) (cs more : List Char) :
    facesCased (cs ++ c :: more) = facesCased cs := by
  obtain ⟨hcased, hstops, -⟩ := caseless_of_isBlank h
  have hblank : (c :: more).dropWhile isCaseIgnorable = c :: more :=
    List.dropWhile_cons_of_neg (by simp [hstops])
  unfold facesCased
  rw [List.dropWhile_append, hblank]
  cases hcs : cs.dropWhile isCaseIgnorable with
  | nil => exact hcased
  | cons d rest => rfl

/-- What comes before a blank makes no difference to the lower-case form of what comes behind it. -/
theorem lowerFrom_behind_blank (h : isBlank c = true) (acc before cs : List Char) :
    lowerFrom (acc ++ c :: before) cs = lowerFrom acc cs := by
  induction cs generalizing acc with
  | nil => rfl
  | cons d cs ih =>
      rw [lowerFrom, lowerFrom, lowerBetween, lowerBetween, facesCased_append_blank h, ← List.cons_append, ih]

/-- **A blank keeps two texts apart** in lower case. -/
theorem lowerFrom_append_blank (h : isBlank c = true) (acc cs more : List Char) :
    lowerFrom acc (cs ++ c :: more) = lowerFrom acc cs ++ c :: lower more := by
  induction cs generalizing acc with
  | nil =>
      show lowerBetween acc c more ++ lowerFrom (c :: acc) more = c :: lowerFrom [] more
      rw [lowerBetween_of_isBlank h, ← lowerFrom_behind_blank h [] acc more]
      rfl
  | cons d cs ih =>
      rw [List.cons_append, lowerFrom, lowerFrom, lowerBetween, lowerBetween, facesCased_append_blank h, ih,
        List.append_assoc]

theorem lower_append_blank (h : isBlank c = true) (cs more : List Char) :
    lower (cs ++ c :: more) = lower cs ++ c :: lower more :=
  lowerFrom_append_blank h [] cs more

theorem lower_blanks_append {blanks : List Char} (h : ∀ c ∈ blanks, isBlank c = true) (cs : List Char) :
    lower (blanks ++ cs) = blanks ++ lower cs := by
  induction blanks with
  | nil => rfl
  | cons c blanks ih =>
      rw [List.forall_mem_cons] at h
      rw [List.cons_append, List.cons_append, ← ih h.2]
      exact lower_append_blank h.1 [] (blanks ++ cs)

theorem lower_append_blanks {blanks : List Char} (h : ∀ c ∈ blanks, isBlank c = true) (cs : List Char) :
    lower (cs ++ blanks) = lower cs ++ blanks := by
  cases blanks with
  | nil => simp
  | cons c blanks =>
      rw [List.forall_mem_cons] at h
      have hblanks := lower_blanks_append h.2 []
      rw [List.append_nil] at hblanks
      rw [lower_append_blank h.1, hblanks]
      simp [lower, lowerFrom]

end StepRunner.Text
