import StepRunner.Proofs.Text.Longest
import StepRunner.Proofs.Text.Occurrence

/-!
# What spells a keyword

A keyword is spelled by a text in letters of any case, with blanks for its spaces (`Spells`). The reader of
keywords takes the blanks of a run all at once, and yet finds every spelling, since no blank begins what comes
behind a space (`IsKeyword`).

* `afterKeyword?_eq_some_iff`: what is left of a text behind a keyword stands behind a text that spells it;
* `Spells.before_blank`: what comes in front of a blank is a blank, too, or the letter in front of a space.
-/

namespace StepRunner.Text

variable {s c d : Char} {cs rest w keyword front behind : List Char}

/-! ## 1. Letters -/

theorem foldsToLetter_ascii : ∀ c : Char, c.toNat < 0x80 → foldsToLetter c = true → isWord c = true :=
  forall_ascii (by decide +kernel)

theorem fold_ascii : ∀ c : Char, c.toNat < 0x80 → 'a' ≤ c ∧ c ≤ 'z' → fold c = c :=
  forall_ascii (by decide +kernel)

theorem fold_of_small (h : 'a' ≤ c ∧ c ≤ 'z') : fold c = c := fold_ascii c (ascii_of_le h.2 (by decide)) h

theorem fold_of_not_ascii (h : ¬ c.toNat < 0x80) : c ∈ ['\u0130', '\u0131', '\u017F', '\u212A'] ∨ fold c = c := by
  have hupper : ¬ ('A' ≤ c ∧ c ≤ 'Z') := fun hc => h (ascii_of_le hc.2 (by decide))
  by_cases hi : c = '\u0130' ∨ c = '\u0131'
  · exact .inl (by rcases hi with rfl | rfl <;> simp)
  · by_cases hs : c = '\u017F'
    · exact .inl (by simp [hs])
    · by_cases hk : c = '\u212A'
      · exact .inl (by simp [hk])
      · exact .inr (by rw [fold, if_neg hupper, if_neg hi, if_neg hs, if_neg hk])

/-- What stands for a letter is a character of a word. -/
theorem isWord_of_foldsToLetter (h : foldsToLetter c = true) : isWord c = true := by
  by_cases hc : c.toNat < 0x80
  · exact foldsToLetter_ascii c hc h
  · rcases fold_of_not_ascii hc with hspecial | hfold
    · have hword : ['\u0130', '\u0131', '\u017F', '\u212A'].all isWord = true := by decide +kernel
      exact List.all_eq_true.mp hword c hspecial
    · rw [foldsToLetter, hfold, Bool.and_eq_true, decide_eq_true_eq, decide_eq_true_eq] at h
      exact absurd (ascii_of_le h.2 (by decide)) hc

theorem isBlank_eq_false_of_foldsToLetter (h : foldsToLetter c = true) : isBlank c = false :=
  isBlank_eq_false_of_isWord (isWord_of_foldsToLetter h)

theorem fold_ne_space (h : foldsToLetter c = true) : fold c ≠ ' ' := by
  intro e
  rw [foldsToLetter, e] at h
  exact absurd h (by decide)

/-! ## 2. Spellings -/

/-- The text spells the keyword: a letter stands for a letter of either case, and for a space stand one or more
    blanks. -/
inductive Spells : List Char → List Char → Prop where
  | nil : Spells [] []
  | letter {c : Char} {keyword w : List Char} (isLetter : foldsToLetter c = true) (spells : Spells keyword w) :
      Spells (fold c :: keyword) (c :: w)
  | blanks {blanks keyword w : List Char} (filled : blanks ≠ []) (blank : ∀ c ∈ blanks, isBlank c = true)
      (spells : Spells keyword w) : Spells (' ' :: keyword) (blanks ++ w)

theorem spells_nil_iff : Spells [] w ↔ w = [] := by
  constructor
  · intro h
    cases h
    rfl
  · rintro rfl
    exact .nil

theorem spells_letter_iff (hs : s ≠ ' ') :
    Spells (s :: keyword) w ↔ ∃ c t, w = c :: t ∧ foldsToLetter c = true ∧ fold c = s ∧ Spells keyword t := by
  constructor
  · intro h
    cases h with
    | letter isLetter spells => exact ⟨_, _, rfl, isLetter, rfl, spells⟩
    | blanks => exact absurd rfl hs
  · rintro ⟨c, t, rfl, isLetter, rfl, spells⟩
    exact .letter isLetter spells

theorem spells_space_iff : Spells (' ' :: keyword) w ↔
    ∃ blanks t, w = blanks ++ t ∧ blanks ≠ [] ∧ (∀ c ∈ blanks, isBlank c = true) ∧ Spells keyword t := by
  constructor
  · generalize hk : ' ' :: keyword = k
    intro h
    cases h with
    | nil => cases hk
    | letter isLetter spells => exact absurd (List.cons.inj hk).1.symm (fold_ne_space isLetter)
    | blanks filled blank spells =>
        obtain ⟨-, rfl⟩ := List.cons.inj hk
        exact ⟨_, _, rfl, filled, blank, spells⟩
  · rintro ⟨blanks, t, rfl, filled, blank, spells⟩
    exact .blanks filled blank spells

theorem Spells.chars (h : Spells keyword w) : ∀ c ∈ w, foldsToLetter c = true ∨ isBlank c = true := by
  induction h with
  | nil => exact nofun
  | letter isLetter spells ih => exact List.forall_mem_cons.mpr ⟨.inl isLetter, ih⟩
  | blanks filled blank spells ih => exact List.forall_mem_append.mpr ⟨fun c hc => .inr (blank c hc), ih⟩

theorem Spells.ne_nil (h : Spells keyword w) (hk : keyword ≠ []) : w ≠ [] := by
  cases h with
  | nil => exact absurd rfl hk
  | letter => exact List.cons_ne_nil _ _
  | blanks filled => exact List.append_ne_nil_of_left_ne_nil filled _

/-- What spells a keyword without a blank is the keyword in letters of any case. -/
theorem Spells.map_fold (h : Spells keyword w) (hw : ∀ c ∈ w, isBlank c = false) : w.map fold = keyword := by
  induction h with
  | nil => rfl
  | letter isLetter spells ih => rw [List.map_cons, ih (List.forall_mem_cons.mp hw).2]
  | blanks filled blank spells ih =>
      obtain ⟨c, run, rfl⟩ := List.exists_cons_of_ne_nil filled
      have hsolid := hw c List.mem_cons_self
      rw [blank c List.mem_cons_self] at hsolid
      cases hsolid

theorem spells_self (hk : Spelled keyword) : Spells keyword keyword := by
  induction keyword with
  | nil => exact .nil
  | cons s keyword ih =>
      rcases hk.1 s List.mem_cons_self with hs | rfl
      · have hspells := Spells.letter (foldsToLetter_of_fold (fold_of_small hs) hs) (ih hk.tail)
        rwa [fold_of_small hs] at hspells
      · exact .blanks (List.cons_ne_nil ' ' []) (List.forall_mem_singleton.mpr rfl) (ih hk.tail)

/-- A keyword that does not end in a space is spelled up to a letter. -/
theorem Spells.last (h : Spells keyword w) (hk : keyword.getLast? ≠ some ' ') :
    ∀ c ∈ w.getLast?, foldsToLetter c = true := by
  induction h with
  | nil => exact nofun
  | @letter c keyword w isLetter spells ih =>
      cases spells with
      | nil => exact fun d hd => Option.some.inj hd ▸ isLetter
      | letter isLetter' spells' =>
          rw [List.getLast?_cons_cons] at hk ⊢
          exact ih hk
      | @blanks run _ _ filled blank spells' =>
          rw [List.getLast?_cons_cons] at hk
          rw [← List.singleton_append, List.getLast?_append_of_ne_nil _ (List.append_ne_nil_of_left_ne_nil filled _)]
          exact ih hk
  | @blanks run keyword w filled blank spells ih =>
      cases keyword with
      | nil => exact absurd rfl hk
      | cons s keyword =>
          rw [List.getLast?_cons_cons] at hk
          rw [List.getLast?_append_of_ne_nil _ (spells.ne_nil (List.cons_ne_nil s keyword))]
          exact ih hk

/-- **In front of a blank** of a spelling stands another, or the letter in front of a space. -/
theorem Spells.before_blank (h : Spells keyword w) (hw : w = front ++ c :: behind) (hc : isBlank c = true) :
    front = [] ∧ keyword.head? = some ' ' ∨
      ∃ d ∈ front.getLast?, isBlank d = true ∨ [fold d, ' '] <:+: keyword := by
  induction h generalizing front with
  | nil => exact absurd hw (by simp)
  | @letter c' keyword w isLetter spells ih =>
      right
      cases front with
      | nil =>
          obtain ⟨rfl, -⟩ := List.cons.inj hw
          rw [isBlank_eq_false_of_foldsToLetter isLetter] at hc
          cases hc
      | cons d front =>
          obtain ⟨rfl, ht⟩ := List.cons.inj hw
          rcases ih ht with ⟨rfl, hspace⟩ | ⟨e, he, hbefore⟩
          · obtain ⟨t, rfl⟩ := List.head?_eq_some_iff.mp hspace
            exact ⟨c', rfl, .inr ⟨[], t, rfl⟩⟩
          · refine ⟨e, ?_, hbefore.imp_right fun hin => List.infix_cons hin⟩
            rw [List.getLast?_cons, Option.mem_def.mp he]
            rfl
  | @blanks run keyword w filled blank spells ih =>
      rcases append_cons_eq_append hw.symm with ⟨t, rfl, -⟩ | ⟨front', rfl, ht⟩
      · cases hlast : front.getLast? with
        | none => exact .inl ⟨List.getLast?_eq_none_iff.mp hlast, rfl⟩
        | some d => exact .inr ⟨d, rfl, .inl (blank d (List.mem_append_left _ (List.mem_of_getLast? hlast)))⟩
      · right
        rcases ih ht with ⟨rfl, -⟩ | ⟨e, he, hbefore⟩
        · obtain ⟨d, hd⟩ := Option.ne_none_iff_exists'.mp (mt List.getLast?_eq_none_iff.mp filled)
          exact ⟨d, by rwa [List.append_nil], .inl (blank d (List.mem_of_getLast? hd))⟩
        · refine ⟨e, ?_, hbefore.imp_right fun hin => List.infix_cons hin⟩
          rw [List.getLast?_append, Option.mem_def.mp he]
          rfl

/-! ## 3. Keywords -/

/-- Words with single spaces between them. -/
structure IsKeyword (keyword : List Char) : Prop where
  spelled : Spelled keyword
  first : keyword.head?.any (· != ' ') = true
  single : ¬ [' ', ' '] <:+: keyword

instance (keyword : List Char) : Decidable (IsKeyword keyword) :=
  decidable_of_iff (Spelled keyword ∧ keyword.head?.any (· != ' ') = true ∧ ¬ [' ', ' '] <:+: keyword)
    ⟨fun h => ⟨h.1, h.2.1, h.2.2⟩, fun h => ⟨h.spelled, h.first, h.single⟩⟩

theorem afterBlanks?_append {blanks : List Char} (filled : blanks ≠ []) (blank : ∀ c ∈ blanks, isBlank c = true)
    (hrest : ∀ c ∈ rest.head?, isBlank c = false) : afterBlanks? (blanks ++ rest) = some rest := by
  obtain ⟨c, t, rfl⟩ := List.exists_cons_of_ne_nil filled
  rw [List.forall_mem_cons] at blank
  rw [List.cons_append, afterBlanks?, if_pos blank.1, dropWhile_run blank.2 hrest]

/-- **What is left behind a keyword** stands behind a text that spells it. -/
theorem afterKeyword?_eq_some_iff (hk : Spelled keyword) (hsingle : ¬ [' ', ' '] <:+: keyword) :
    afterKeyword? keyword cs = some rest ↔ ∃ w, cs = w ++ rest ∧ Spells keyword w := by
  induction keyword generalizing cs with
  | nil =>
      simp only [spells_nil_iff, afterKeyword?, Option.some.injEq]
      constructor
      · rintro rfl
        exact ⟨[], rfl, rfl⟩
      · rintro ⟨w, rfl, rfl⟩
        rfl
  | cons s keyword ih =>
      have htail : ¬ [' ', ' '] <:+: keyword := fun hin => hsingle (List.infix_cons hin)
      rcases hk.1 s List.mem_cons_self with hletter | rfl
      · have hs : s ≠ ' ' := by
          rintro rfl
          exact absurd hletter.1 (by decide)
        simp only [spells_letter_iff hs]
        constructor
        · intro h
          cases cs with
          | nil =>
              rw [afterKeyword?_nil_eq_none (List.cons_ne_nil _ _)] at h
              cases h
          | cons c cs =>
              rw [afterKeyword?_letter hs] at h
              split at h
              · next hc =>
                  obtain ⟨w, rfl, hw⟩ := (ih hk.tail htail).mp h
                  exact ⟨c :: w, rfl, c, w, rfl, foldsToLetter_of_fold hc hletter, hc, hw⟩
              · cases h
        · rintro ⟨_, rfl, c, t, rfl, -, hc, ht⟩
          rw [List.cons_append, afterKeyword?_letter hs, if_pos hc]
          exact (ih hk.tail htail).mpr ⟨t, rfl, ht⟩
      · simp only [spells_space_iff, afterKeyword?, if_pos, Option.bind_eq_some_iff]
        constructor
        · rintro ⟨mid, hmid, hrest⟩
          obtain ⟨blanks, rfl, filled, blank⟩ := exists_of_afterBlanks? hmid
          obtain ⟨t, rfl, ht⟩ := (ih hk.tail htail).mp hrest
          exact ⟨blanks ++ t, (List.append_assoc _ _ _).symm, blanks, t, rfl, filled, blank, ht⟩
        · rintro ⟨_, rfl, blanks, t, rfl, filled, blank, ht⟩
          refine ⟨t ++ rest, ?_, (ih hk.tail htail).mpr ⟨t, rfl, ht⟩⟩
          rw [List.append_assoc]
          refine afterBlanks?_append filled blank fun c hc => ?_
          -- behind a single space the keyword goes on with a letter
          obtain ⟨s, k, rfl⟩ := List.exists_cons_of_ne_nil hk.ne_nil
          have hs : s ≠ ' ' := by
            rintro rfl
            exact hsingle ⟨[], k, rfl⟩
          obtain ⟨d, t, rfl, hd, -, -⟩ := (spells_letter_iff hs).mp ht
          obtain rfl := Option.some.inj hc
          exact isBlank_eq_false_of_foldsToLetter hd

end StepRunner.Text
