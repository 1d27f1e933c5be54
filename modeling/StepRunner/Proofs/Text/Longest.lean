import Mathlib.Computability.Language
import Mathlib.Data.List.TakeWhile
import StepRunner.Proofs.Text.Scan

/-!
# As much as a language takes

What a greedy reader reads of a text is as much of its beginning as a language takes (`Longest`), and
there is at most one such beginning (`Longest.unique`).

* `length_le_takeWhile`: a run over a class of characters is the longest, and where it ends
  (`takeWhile_run`, `dropWhile_run`);
* `Longest.mul`: one language after another, where what goes on with the first cannot begin the second;
* `longest_of_notMem`: up to a character that is in no text of the language;
* `Takes`: what a reader leaves of a text after as much as a language takes.
-/

namespace StepRunner.Text

variable {L M : Language Char} {p : Char → Bool} {c : Char} {cs rest more v w : List Char}

/-! ## 1. The longest beginning -/

/-- As much of the beginning of a text as the language takes. -/
structure Longest (L : Language Char) (cs w : List Char) : Prop where
  begins : w <+: cs
  mem : w ∈ L
  longest : ∀ v, v <+: cs → v ∈ L → v.length ≤ w.length

theorem Longest.unique (h : Longest L cs v) (h' : Longest L cs w) : v = w := by
  have hle := h'.longest v h.begins h.mem
  have hge := h.longest w h'.begins h'.mem
  exact (List.prefix_of_prefix_length_le h.begins h'.begins hle).eq_of_length (Nat.le_antisymm hle hge)

theorem Longest.of_prefix (h : Longest L cs w) (hv : v <+: cs) (hm : v ∈ L) : v <+: w :=
  List.prefix_of_prefix_length_le hv h.begins (h.longest v hv hm)

theorem length_le_takeWhile (hv : v <+: cs) (hp : ∀ c ∈ v, p c = true) :
    v.length ≤ (cs.takeWhile p).length := by
  obtain ⟨more, rfl⟩ := hv
  rw [List.takeWhile_append_of_pos hp, List.length_append]
  exact Nat.le_add_right _ _

/-- A text of the language is taken as a whole. -/
theorem longest_self (h : w ∈ L) : Longest L w w := ⟨List.prefix_refl w, h, fun _ hv _ => hv.length_le⟩

/-- A run over a class ends where no character of the class follows. -/
theorem takeWhile_run (hw : ∀ c ∈ w, p c = true) (hrest : ∀ c ∈ rest.head?, p c = false) :
    (w ++ rest).takeWhile p = w := by
  rw [List.takeWhile_append_of_pos hw]
  cases rest with
  | nil => exact List.append_nil w
  | cons c rest => rw [List.takeWhile_cons_of_neg (by simp [hrest c rfl]), List.append_nil]

theorem dropWhile_run (hw : ∀ c ∈ w, p c = true) (hrest : ∀ c ∈ rest.head?, p c = false) :
    (w ++ rest).dropWhile p = rest := by
  rw [List.dropWhile_append_of_pos hw]
  cases rest with
  | nil => rfl
  | cons c rest => exact List.dropWhile_cons_of_neg (by simp [hrest c rfl])

/-- **One language after another**: what goes on with the first must not begin the second. -/
theorem Longest.mul (h : Longest L (v ++ rest) v) (h' : Longest M rest w)
    (hapart : ∀ x ∈ L, ∀ c t, v = x ++ c :: t → ∀ u, c :: u ∉ M) : Longest (L * M) (v ++ rest) (v ++ w) := by
  refine ⟨(List.prefix_append_right_inj v).mpr h'.begins,
    Language.mem_mul.mpr ⟨v, h.mem, w, h'.mem, rfl⟩, fun z hz hm => ?_⟩
  obtain ⟨x, hx, y, hy, rfl⟩ := Language.mem_mul.mp hm
  obtain ⟨t, rfl⟩ := h.of_prefix ((List.prefix_append x y).trans hz) hx
  rw [List.append_assoc, List.prefix_append_right_inj] at hz
  rw [List.length_append, List.length_append, List.length_append]
  cases t with
  | nil =>
      have hle := h'.longest y hz hy
      rw [List.length_nil]
      omega
  | cons c t =>
      -- the first stops short, so that nothing of the second can follow
      cases y with
      | nil =>
          rw [List.length_nil]
          omega
      | cons d u =>
          obtain ⟨rfl, -⟩ := List.cons_prefix_cons.mp hz
          exact absurd hy (hapart x hx d t rfl u)

/-- A beginning that is longer than what the text starts with goes on behind it. -/
theorem exists_cons_of_lt (hv : v <+: w ++ rest) (hlt : w.length < v.length) :
    ∃ c t, v = w ++ c :: t ∧ c :: t <+: rest := by
  obtain ⟨t, rfl⟩ := List.prefix_of_prefix_length_le (List.prefix_append _ _) hv hlt.le
  rw [List.prefix_append_right_inj] at hv
  cases t with
  | nil => simp at hlt
  | cons c t => exact ⟨c, t, rfl, hv⟩

/-- **Up to a character** that is in no text of the language. -/
theorem longest_of_notMem (hw : w ∈ L) (hc : ∀ v ∈ L, c ∉ v) (rest : List Char) :
    Longest L (w ++ c :: rest) w := by
  refine ⟨List.prefix_append _ _, hw, fun v hv hm => Nat.le_of_not_lt fun hlt => ?_⟩
  obtain ⟨d, t, rfl, ht⟩ := exists_cons_of_lt hv hlt
  obtain ⟨rfl, -⟩ := List.cons_prefix_cons.mp ht
  exact hc _ hm (by simp)

/-- Characters behind a text that are in no text of the language make no difference. -/
theorem longest_append_iff (hmore : ∀ c ∈ more, ∀ v ∈ L, c ∉ v) :
    Longest L (cs ++ more) w ↔ Longest L cs w := by
  have hbegins {v : List Char} (hv : v ∈ L) : v <+: cs ++ more ↔ v <+: cs := by
    refine ⟨fun h => ?_, fun h => h.trans (List.prefix_append _ _)⟩
    refine List.prefix_of_prefix_length_le h (List.prefix_append _ _) (Nat.le_of_not_lt fun hlt => ?_)
    obtain ⟨d, t, rfl, ht⟩ := exists_cons_of_lt h hlt
    exact hmore d (ht.subset List.mem_cons_self) _ hv (by simp)
  constructor
  · intro h
    exact ⟨(hbegins h.mem).mp h.begins, h.mem, fun v hv hm => h.longest v ((hbegins hm).mpr hv) hm⟩
  · intro h
    exact ⟨(hbegins h.mem).mpr h.begins, h.mem, fun v hv hm => h.longest v ((hbegins hm).mp hv) hm⟩

/-- What may be left out is taken where it stands. -/
theorem Longest.optional (h : Longest M cs w) : Longest (1 + M) cs w := by
  refine ⟨h.begins, (Language.mem_add _ _ _).mpr (.inr h.mem), fun v hv hm => ?_⟩
  rcases (Language.mem_add _ _ _).mp hm with hm | hm
  · rw [(Language.mem_one v).mp hm]
    exact Nat.zero_le _
  · exact h.longest v hv hm

theorem longest_optional_nil (h : ∀ v, v <+: cs → v ∉ M) : Longest (1 + M) cs [] := by
  refine ⟨List.nil_prefix, (Language.mem_add _ _ _).mpr (.inl (Language.nil_mem_one)), fun v hv hm => ?_⟩
  rcases (Language.mem_add _ _ _).mp hm with hm | hm
  · rw [(Language.mem_one v).mp hm]
  · exact absurd hm (h v hv)

/-! ## 2. Readers -/

/-- A reader that finds something wherever there is something, and only as much as the language takes. -/
theorem reads_iff {read : Option (List Char)} (sound : ∀ w, read = some w → Longest L cs w)
    (complete : ∀ v, v <+: cs → v ∈ L → read.isSome = true) : read = some w ↔ Longest L cs w := by
  refine ⟨sound w, fun hw => ?_⟩
  obtain ⟨v, hv⟩ := Option.isSome_iff_exists.mp (complete w hw.begins hw.mem)
  rw [hv, (sound v hv).unique hw]

theorem readUpTo_append (w rest : List Char) : readUpTo (w ++ rest) rest = w := by
  unfold readUpTo
  rw [List.length_append, Nat.add_sub_cancel, List.take_left]

/-- What is left of a text after as much as the language takes, if it takes anything. -/
structure Takes (L : Language Char) (cs : List Char) (left : Option (List Char)) : Prop where
  sound : ∀ rest, left = some rest → ∃ w, cs = w ++ rest ∧ Longest L cs w
  complete : ∀ v, v <+: cs → v ∈ L → left.isSome = true

theorem Takes.reads {left : Option (List Char)} (h : Takes L cs left) :
    left.map (readUpTo cs) = some w ↔ Longest L cs w := by
  refine reads_iff (fun w hw => ?_) fun v hv hm => ?_
  · obtain ⟨rest, hrest, rfl⟩ := Option.map_eq_some_iff.mp hw
    obtain ⟨w, e, hw⟩ := h.sound rest hrest
    subst e
    rwa [readUpTo_append]
  · rw [Option.isSome_map]
    exact h.complete v hv hm

/-- **What follows a spelling** stands behind a text that folds to it. -/
theorem afterLiteral?_eq_some_iff {spelling : List Char} :
    afterLiteral? spelling cs = some rest ↔ ∃ w, cs = w ++ rest ∧ w.map fold = spelling := by
  induction spelling generalizing cs with
  | nil =>
      constructor
      · intro h
        exact ⟨[], Option.some.inj h, rfl⟩
      · rintro ⟨w, rfl, hw⟩
        rw [List.map_eq_nil_iff.mp hw]
        rfl
  | cons s spelling ih =>
      cases cs with
      | nil =>
          refine ⟨nofun, ?_⟩
          rintro ⟨w, e, hw⟩
          obtain ⟨rfl, -⟩ := List.append_eq_nil_iff.mp e.symm
          cases hw
      | cons c cs =>
          rw [afterLiteral?]
          constructor
          · intro h
            split at h
            · next hc =>
                obtain ⟨w, rfl, hw⟩ := ih.mp h
                exact ⟨c :: w, rfl, by rw [List.map_cons, hc, hw]⟩
            · cases h
          · rintro ⟨w, e, hw⟩
            cases w with
            | nil => cases hw
            | cons d w =>
                obtain ⟨rfl, rfl⟩ := List.cons.inj e
                obtain ⟨hc, hw⟩ := List.cons.inj hw
                rw [if_pos hc]
                exact ih.mpr ⟨w, rfl, hw⟩

/-- **What follows blanks** stands behind one or more of them. -/
theorem exists_of_afterBlanks? (h : afterBlanks? cs = some rest) :
    ∃ blanks, cs = blanks ++ rest ∧ blanks ≠ [] ∧ ∀ c ∈ blanks, isBlank c = true := by
  cases cs with
  | nil => cases h
  | cons c cs =>
      rw [afterBlanks?] at h
      split at h
      · next hc =>
          obtain rfl := Option.some.inj h
          refine ⟨c :: cs.takeWhile isBlank, ?_, List.cons_ne_nil _ _, ?_⟩
          · rw [List.cons_append, List.takeWhile_append_dropWhile]
          · exact List.forall_mem_cons.mpr ⟨hc, fun c hc => List.mem_takeWhile_imp hc⟩
      · cases h

end StepRunner.Text
