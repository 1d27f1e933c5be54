import Mathlib.Data.List.Basic
import StepRunner.Proofs.Text.LowerCase
import StepRunner.Text.Scan

/-!
# Where a reader finds something

* `isSome_search_iff`: a search succeeds exactly if the reader does at some place of the text, and it
  finds what the reader reads there (`exists_of_search_eq_some`), at the first such place
  (`searchFrom_eq_some_iff`, `search_eq_some_iff_first`);
* `afterKeyword?_append`: what a keyword leaves, with more text behind it;
* `afterKeyword?_of_lower`: a keyword that stands in a lower-case text stands in the text itself. Keywords
  are `Spelled` in small letters and spaces, and do not end in an i: of a dotted capital i a lower-case
  text shows the i alone, and then a character that is in no keyword.
-/

namespace StepRunner.Text

variable {α : Type} {read : Option Char → List Char → Option α} {prev : Option Char}
  {c : Char} {cs rest more keyword : List Char}

/-! ## 1. Searching -/

theorem isSome_searchFrom_cons : (searchFrom read prev (c :: cs)).isSome = true ↔
    (read prev (c :: cs)).isSome = true ∨ (searchFrom read (some c) cs).isSome = true := by
  rw [searchFrom]
  cases read prev (c :: cs) <;> simp

/-- **What a search finds** was read at a place, after the character before it. -/
theorem exists_of_searchFrom_eq_some {a : α} (h : searchFrom read prev cs = some a) :
    ∃ before rest, cs = before ++ rest ∧ read (before.getLast?.or prev) rest = some a := by
  induction cs generalizing prev with
  | nil => exact ⟨[], [], rfl, h⟩
  | cons c cs ih =>
      rw [searchFrom] at h
      split at h
      · next hr => exact ⟨[], c :: cs, rfl, hr.trans h⟩
      · obtain ⟨before, rest, rfl, hr⟩ := ih h
        refine ⟨c :: before, rest, rfl, ?_⟩
        rw [List.getLast?_cons]
        cases hb : before.getLast? <;> simpa [hb] using hr

theorem exists_of_search_eq_some {a : α} (h : search read cs = some a) :
    ∃ before rest, cs = before ++ rest ∧ read before.getLast? rest = some a := by
  obtain ⟨before, rest, e, hr⟩ := exists_of_searchFrom_eq_some h
  exact ⟨before, rest, e, by rwa [Option.or_none] at hr⟩

/-- **Where a search succeeds**: at a place, after the character before it. -/
theorem isSome_searchFrom_iff : (searchFrom read prev cs).isSome = true ↔
    ∃ before rest, cs = before ++ rest ∧ (read (before.getLast?.or prev) rest).isSome = true := by
  constructor
  · intro h
    obtain ⟨a, ha⟩ := Option.isSome_iff_exists.mp h
    obtain ⟨before, rest, e, hr⟩ := exists_of_searchFrom_eq_some ha
    exact ⟨before, rest, e, Option.isSome_iff_exists.mpr ⟨a, hr⟩⟩
  · rintro ⟨before, rest, rfl, h⟩
    induction before generalizing prev with
    | nil =>
        cases rest with
        | nil => exact h
        | cons c rest => exact isSome_searchFrom_cons.mpr (.inl h)
    | cons c before ih =>
        refine isSome_searchFrom_cons.mpr (.inr (ih ?_))
        rw [List.getLast?_cons] at h
        cases hb : before.getLast? <;> simpa [hb] using h

theorem isSome_search_iff : (search read cs).isSome = true ↔
    ∃ before rest, cs = before ++ rest ∧ (read before.getLast? rest).isSome = true := by
  unfold search
  rw [isSome_searchFrom_iff]
  simp

theorem getLast?_cons_or (c : Char) (front : List Char) (prev : Option Char) :
    (c :: front).getLast?.or prev = front.getLast?.or (some c) := by
  rw [List.getLast?_cons]
  cases front.getLast? <;> rfl

/-- There is nothing at the places of `before` that come in front of `rest`. -/
def NothingIn (read : Option Char → List Char → Option α) (prev : Option Char) (before rest : List Char) : Prop :=
  ∀ front back, before = front ++ back → back ≠ [] → read (front.getLast?.or prev) (back ++ rest) = none

theorem nothingIn_nil : NothingIn read prev [] rest :=
  fun _ _ e hne => absurd (List.append_eq_nil_iff.mp e.symm).2 hne

theorem nothingIn_cons {before : List Char} : NothingIn read prev (c :: before) rest ↔
    read prev (c :: (before ++ rest)) = none ∧ NothingIn read (some c) before rest := by
  constructor
  · refine fun h => ⟨h [] (c :: before) rfl (List.cons_ne_nil c before), fun front back e hne => ?_⟩
    rw [← getLast?_cons_or c front prev]
    exact h (c :: front) back (congrArg (c :: ·) e) hne
  · rintro ⟨hc, h⟩ front back e hne
    cases front with
    | nil =>
        obtain rfl : c :: before = back := e
        exact hc
    | cons d front =>
        obtain ⟨rfl, rfl⟩ := List.cons.inj e
        rw [getLast?_cons_or]
        exact h front back rfl hne

/-- A search passes over places at which there is nothing. -/
theorem searchFrom_append {lead : List Char} (h : NothingIn read prev lead cs) :
    searchFrom read prev (lead ++ cs) = searchFrom read (lead.getLast?.or prev) cs := by
  induction lead generalizing prev with
  | nil => rfl
  | cons c lead ih =>
      obtain ⟨hc, h⟩ := nothingIn_cons.mp h
      rw [List.cons_append, searchFrom, hc, getLast?_cons_or]
      exact ih h

/-- **The first place** is where a search finds something. -/
theorem searchFrom_eq_some_iff {a : α} : searchFrom read prev cs = some a ↔
    ∃ before rest, cs = before ++ rest ∧ read (before.getLast?.or prev) rest = some a ∧
      NothingIn read prev before rest := by
  constructor
  · intro h
    induction cs generalizing prev with
    | nil => exact ⟨[], [], rfl, h, nothingIn_nil⟩
    | cons c cs ih =>
        rw [searchFrom] at h
        split at h
        · next hr => exact ⟨[], c :: cs, rfl, hr.trans h, nothingIn_nil⟩
        · next hr =>
            obtain ⟨before, rest, rfl, hread, hnone⟩ := ih h
            refine ⟨c :: before, rest, rfl, ?_, nothingIn_cons.mpr ⟨hr, hnone⟩⟩
            rwa [getLast?_cons_or]
  · rintro ⟨before, rest, rfl, hread, hnone⟩
    rw [searchFrom_append hnone]
    cases rest with
    | nil => exact hread
    | cons c rest => rw [searchFrom, hread]

theorem search_eq_some_iff {a : α} : search read cs = some a ↔
    ∃ before rest, cs = before ++ rest ∧ read before.getLast? rest = some a ∧
      ∀ front back, before = front ++ back → back ≠ [] → read front.getLast? (back ++ rest) = none := by
  unfold search
  rw [searchFrom_eq_some_iff]
  simp only [NothingIn, Option.or_none]

/-- **What a search finds** is what stands at the first of the places at which something can be read. -/
theorem search_eq_some_iff_first {a : α} {StandsAt : List Char → α → Prop}
    (hstands : ∀ before a, StandsAt before a ↔ ∃ rest, cs = before ++ rest ∧ read before.getLast? rest = some a) :
    search read cs = some a ↔
      ∃ before, StandsAt before a ∧ ∀ front b, StandsAt front b → before.length ≤ front.length := by
  rw [search_eq_some_iff]
  refine exists_congr fun before => ⟨?_, fun h => ?_⟩
  · rintro ⟨rest, rfl, hread, hnone⟩
    refine ⟨(hstands before a).mpr ⟨rest, rfl, hread⟩, fun front b hb => Nat.le_of_not_lt fun hlt => ?_⟩
    obtain ⟨rest', e, hread'⟩ := (hstands front b).mp hb
    obtain ⟨back, rfl⟩ := List.prefix_of_prefix_length_le ⟨rest', e.symm⟩ (List.prefix_append _ _) (Nat.le_of_lt hlt)
    rw [List.append_assoc] at e
    obtain rfl := List.append_cancel_left e
    have hne : back ≠ [] := by
      rintro rfl
      simp at hlt
    rw [hnone front back rfl hne] at hread'
    cases hread'
  · obtain ⟨rest, rfl, hread⟩ := (hstands before a).mp h.1
    refine ⟨rest, rfl, hread, fun front back e hne => Option.eq_none_iff_forall_not_mem.mpr fun b hb => ?_⟩
    subst e
    have hle := h.2 front b ((hstands front b).mpr ⟨back ++ rest, List.append_assoc _ _ _, hb⟩)
    rw [List.length_append] at hle
    exact hne (List.length_eq_zero_iff.mp (by omega))

theorem atWordStart_iff : atWordStart prev = true ↔ ∀ c ∈ prev, isWord c = false := by
  cases prev <;> simp [atWordStart]

theorem atWordEnd_iff : atWordEnd cs = true ↔ ∀ c ∈ cs.head?, isWord c = false := by
  cases cs <;> simp [atWordEnd]

/-! ## 2. Keywords -/

/-- In small letters and spaces, and not ending in a space or an i. -/
def Spelled (keyword : List Char) : Prop :=
  (∀ s ∈ keyword, ('a' ≤ s ∧ s ≤ 'z') ∨ s = ' ') ∧ keyword.getLast? ≠ some 'i' ∧
    keyword.getLast? ≠ some ' '

instance (keyword : List Char) : Decidable (Spelled keyword) :=
  @instDecidableAnd _ _ (List.decidableBAll _ keyword) inferInstance

theorem Spelled.tail {s : Char} (h : Spelled (s :: keyword)) : Spelled keyword := by
  cases keyword with
  | nil => exact ⟨nofun, nofun, nofun⟩
  | cons s' keyword =>
      obtain ⟨hs, hi, hb⟩ := h
      rw [List.getLast?_cons_cons] at hi hb
      exact ⟨fun x hx => hs x (List.mem_cons_of_mem _ hx), hi, hb⟩

theorem Spelled.ne_nil (h : Spelled (' ' :: keyword)) : keyword ≠ [] := by
  rintro rfl
  exact h.2.2 rfl

theorem afterKeyword?_nil_eq_none (h : keyword ≠ []) : afterKeyword? keyword [] = none := by
  cases keyword with
  | nil => exact absurd rfl h
  | cons s keyword =>
      rw [afterKeyword?]
      split <;> rfl

theorem afterKeyword?_letter {s : Char} (hs : s ≠ ' ') :
    afterKeyword? (s :: keyword) (c :: cs) =
      if fold c = s then afterKeyword? keyword cs else none := by
  rw [afterKeyword?, if_neg hs]

theorem afterKeyword?_space : afterKeyword? (' ' :: keyword) (c :: cs) =
    if isBlank c = true then afterKeyword? keyword (cs.dropWhile isBlank) else none := by
  rw [afterKeyword?, if_pos rfl, afterBlanks?]
  split <;> rfl

/-- **More text** behind a keyword is left over with the rest. -/
theorem afterKeyword?_append (hk : Spelled keyword) (h : afterKeyword? keyword cs = some rest)
    (more : List Char) : afterKeyword? keyword (cs ++ more) = some (rest ++ more) := by
  induction keyword generalizing cs with
  | nil =>
      obtain rfl : cs = rest := Option.some.inj h
      rfl
  | cons s keyword ih =>
      cases cs with
      | nil =>
          rw [afterKeyword?_nil_eq_none (List.cons_ne_nil _ _)] at h
          cases h
      | cons c cs =>
          by_cases hs : s = ' '
          · subst hs
            rw [afterKeyword?_space] at h
            rw [List.cons_append, afterKeyword?_space]
            split at h
            · next hb =>
                rw [if_pos hb, List.dropWhile_append]
                split
                · next he =>
                    rw [List.isEmpty_iff.mp he, afterKeyword?_nil_eq_none hk.ne_nil] at h
                    cases h
                · exact ih hk.tail h
            · cases h
          · rw [afterKeyword?_letter hs] at h
            rw [List.cons_append, afterKeyword?_letter hs]
            split at h
            · next hc =>
                rw [if_pos hc]
                exact ih hk.tail h
            · cases h

theorem afterLiteral?_eq_afterKeyword? (hs : ' ' ∉ keyword) (cs : List Char) :
    afterLiteral? keyword cs = afterKeyword? keyword cs := by
  induction keyword generalizing cs with
  | nil => rfl
  | cons s keyword ih =>
      rw [List.mem_cons, not_or] at hs
      cases cs with
      | nil => exact (afterKeyword?_nil_eq_none (List.cons_ne_nil _ _)).symm
      | cons c cs => rw [afterLiteral?, afterKeyword?_letter (Ne.symm hs.1), ih hs.2]

/-! ## 3. Keywords in a lower-case text -/

theorem foldsToLetter_of_fold {s : Char} (h : fold c = s) (hs : 'a' ≤ s ∧ s ≤ 'z') :
    foldsToLetter c = true := by
  unfold foldsToLetter
  simp [h, hs]

/-- Where only the combining dot is left of a dotted capital i, no keyword stands. -/
theorem afterKeyword?_dot (hk : Spelled keyword) (hn : keyword ≠ []) (cs : List Char) :
    afterKeyword? keyword ('\u0307' :: cs) = none := by
  cases keyword with
  | nil => exact absurd rfl hn
  | cons s keyword =>
      rcases hk.1 s List.mem_cons_self with hs | rfl
      · have hsp : s ≠ ' ' := by
          rintro rfl
          exact absurd hs.1 (by decide)
        rw [afterKeyword?_letter hsp, if_neg]
        rintro rfl
        exact absurd hs (by decide)
      · rfl

/-- **A keyword of a lower-case text** stands in the text itself, and leaves the rest of it. -/
theorem afterKeyword?_of_lower {acc : List Char} (hk : Spelled keyword)
    (h : afterKeyword? keyword (lowerFrom acc cs) = some rest) :
    ∃ acc' rest', afterKeyword? keyword cs = some rest' ∧ rest = lowerFrom acc' rest' := by
  induction keyword generalizing acc cs with
  | nil => exact ⟨acc, cs, rfl, (Option.some.inj h).symm⟩
  | cons s keyword ih =>
      cases cs with
      | nil =>
          rw [show lowerFrom acc [] = [] from rfl, afterKeyword?_nil_eq_none (List.cons_ne_nil _ _)] at h
          cases h
      | cons c cs =>
          by_cases hc : c = '\u0130'
          · subst hc
            rw [lowerFrom_dotted] at h
            by_cases hs : s = ' '
            · subst hs
              cases h
            · rw [afterKeyword?_letter hs] at h
              split at h
              · next hi =>
                  obtain rfl : 'i' = s := hi
                  have hne : keyword ≠ [] := by
                    rintro rfl
                    exact hk.2.1 rfl
                  rw [afterKeyword?_dot hk.tail hne] at h
                  cases h
              · cases h
          · obtain ⟨d, hd, ha⟩ := lowerFrom_cons acc cs hc
            rw [hd] at h
            rcases hk.1 s List.mem_cons_self with hs | rfl
            · have hsp : s ≠ ' ' := by
                rintro rfl
                exact absurd hs.1 (by decide)
              rw [afterKeyword?_letter hsp] at h ⊢
              split at h
              · next hf =>
                  rw [if_pos ((ha.letter (foldsToLetter_of_fold hf hs)).symm.trans hf)]
                  exact ih hk.tail h
              · cases h
            · rw [afterKeyword?_space, ha.blank] at h
              rw [afterKeyword?_space]
              split at h
              · next hb =>
                  rw [if_pos hb]
                  obtain ⟨acc', e⟩ := dropWhile_lowerFrom (c :: acc) cs
                  rw [e] at h
                  exact ih hk.tail h
              · cases h

theorem atWordEnd_cons (c : Char) (cs : List Char) : atWordEnd (c :: cs) = !isWord c := rfl

/-- A word that ends in a lower-case text ends in the text. -/
theorem atWordEnd_of_lower {acc : List Char} (h : atWordEnd (lowerFrom acc cs) = true) :
    atWordEnd cs = true := by
  cases cs with
  | nil => rfl
  | cons c cs =>
      by_cases hc : c = '\u0130'
      · subst hc
        cases h
      · obtain ⟨d, hd, ha⟩ := lowerFrom_cons acc cs hc
        rw [hd, atWordEnd_cons, Bool.not_eq_true'] at h
        rw [atWordEnd_cons, Bool.not_eq_true', ← Bool.not_eq_true]
        intro hw
        rw [ha.word hw] at h
        cases h

end StepRunner.Text
