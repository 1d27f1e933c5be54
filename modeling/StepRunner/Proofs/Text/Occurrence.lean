import Mathlib.Data.List.Infix
import StepRunner.Text.Basic

/-!
# Where a text first stands in another

* `append_cons_eq_append`, `append_cons_eq_append_append`, `append_cons_cases`: where a character of a text lies
  in its parts;
* `StandsFirst`: the first place of a needle, of which there is one wherever the needle stands at all
  (`exists_standsFirst`), and with which more text behind makes no difference (`StandsFirst.append`);
* `replaceFirst_of_standsFirst`: that is where something else is put in its place;
* `parts_induction`: a text with separators, one part after the other.
-/

namespace StepRunner.Text

variable {c d sep : Char} {x y z p q pre rest needle cs more before behind front back : List Char}

/-! ## 1. Where a character lies -/

/-- A character of two texts in a row stands in the first or in the second. -/
theorem append_cons_eq_append (h : p ++ c :: q = x ++ y) :
    (∃ t, x = p ++ c :: t ∧ q = t ++ y) ∨ ∃ s, p = x ++ s ∧ y = s ++ c :: q := by
  rcases List.append_eq_append_iff.mp h with ⟨t, hx, ht⟩ | ⟨s, hp, hy⟩
  · cases t with
    | nil => exact .inr ⟨[], by rw [hx, List.append_nil, List.append_nil], ht.symm⟩
    | cons d t =>
        obtain ⟨rfl, hq⟩ := List.cons.inj ht
        exact .inl ⟨t, hx, hq⟩
  · exact .inr ⟨s, hp, hy⟩

/-- A character of three texts in a row stands in one of them. -/
theorem append_cons_eq_append_append (h : p ++ c :: q = x ++ y ++ z) :
    (∃ t, x = p ++ c :: t ∧ q = t ++ y ++ z) ∨ (∃ s t, y = s ++ c :: t ∧ p = x ++ s ∧ q = t ++ z) ∨
      ∃ s, z = s ++ c :: q ∧ p = x ++ y ++ s := by
  rcases append_cons_eq_append h with ⟨t, hxy, rfl⟩ | ⟨s, hp, hz⟩
  · rcases append_cons_eq_append hxy.symm with ⟨r, hx, rfl⟩ | ⟨s, hp, hy⟩
    · exact .inl ⟨r, hx, rfl⟩
    · exact .inr (.inl ⟨s, t, hy, hp, rfl⟩)
  · exact .inr (.inr ⟨s, hz, hp⟩)

/-- A character of a text stands behind another, or is the same, or stands in front of it. -/
theorem append_cons_cases (h : x ++ c :: y = p ++ d :: q) : (∃ t, x = p ++ d :: t ∧ q = t ++ c :: y) ∨
    (p = x ∧ d = c ∧ q = y) ∨ ∃ t, p = x ++ c :: t ∧ y = t ++ d :: q := by
  rcases append_cons_eq_append h with ⟨t, hp, hy⟩ | ⟨s, hx, hs⟩
  · exact .inr (.inr ⟨t, hp, hy⟩)
  · cases s with
    | nil =>
        obtain ⟨hd, hq⟩ := List.cons.inj hs
        exact .inr (.inl ⟨by rw [hx, List.append_nil], hd, hq⟩)
    | cons e s =>
        obtain ⟨rfl, hq⟩ := List.cons.inj hs
        exact .inl ⟨s, hx, hq⟩

/-! ## 2. The first place -/

theorem after?_eq_some_iff : after? pre cs = some rest ↔ cs = pre ++ rest := by
  induction pre generalizing cs with
  | nil => exact Option.some_inj
  | cons p pre ih =>
      cases cs with
      | nil => exact iff_of_false nofun nofun
      | cons c cs =>
          rw [after?, List.cons_append, List.cons.injEq]
          split
          · next hp => rw [ih, and_iff_right hp.symm]
          · next hp => exact iff_of_false nofun fun h => hp h.1.symm

theorem isSome_after? : (after? pre cs).isSome = true ↔ pre <+: cs := by
  rw [Option.isSome_iff_exists]
  simp only [after?_eq_some_iff]
  exact exists_congr fun rest => eq_comm

theorem contains_iff_infix : contains needle cs = true ↔ needle <:+: cs := by
  induction cs with
  | nil => rw [contains, List.isEmpty_iff, List.infix_nil]
  | cons c cs ih => rw [contains, Bool.or_eq_true, isSome_after?, ih, List.infix_cons_iff]

/-- The needle stands between `before` and `behind`, and at no earlier place. -/
structure StandsFirst (needle cs before behind : List Char) : Prop where
  place : cs = before ++ needle ++ behind
  first : ∀ front back, cs = front ++ needle ++ back → before.length ≤ front.length

theorem StandsFirst.unique (h : StandsFirst needle cs before behind) (h' : StandsFirst needle cs front back) :
    before = front ∧ behind = back := by
  have hlength := Nat.le_antisymm (h.first _ _ h'.place) (h'.first _ _ h.place)
  have hplace := h.place.symm.trans h'.place
  rw [List.append_assoc, List.append_assoc] at hplace
  obtain ⟨hbefore, hrest⟩ := List.append_inj hplace hlength
  exact ⟨hbefore, List.append_cancel_left hrest⟩

/-- Behind a character at which the needle does not stand, its first place is the first of the rest. -/
theorem standsFirst_cons (hnone : ∀ tail, c :: cs ≠ needle ++ tail) :
    StandsFirst needle (c :: cs) (c :: before) behind ↔ StandsFirst needle cs before behind := by
  constructor
  · intro h
    refine ⟨(List.cons.inj h.place).2, fun front back e => ?_⟩
    exact Nat.le_of_succ_le_succ (h.first (c :: front) back (congrArg (c :: ·) e))
  · intro h
    refine ⟨congrArg (c :: ·) h.place, fun front back e => ?_⟩
    cases front with
    | nil => exact absurd e (hnone back)
    | cons d front => exact Nat.succ_le_succ (h.first front back (List.cons.inj e).2)

theorem exists_standsFirst (h : needle <:+: cs) : ∃ before behind, StandsFirst needle cs before behind := by
  induction cs with
  | nil =>
      obtain rfl := List.infix_nil.mp h
      exact ⟨[], [], rfl, fun _ _ _ => Nat.zero_le _⟩
  | cons c cs ih =>
      by_cases hbegins : needle <+: c :: cs
      · obtain ⟨behind, e⟩ := hbegins
        exact ⟨[], behind, e.symm, fun _ _ _ => Nat.zero_le _⟩
      · obtain ⟨before, behind, hfirst⟩ := ih ((List.infix_cons_iff.mp h).resolve_left hbegins)
        exact ⟨c :: before, behind, (standsFirst_cons fun tail e => hbegins ⟨tail, e.symm⟩).mpr hfirst⟩

/-- **What is replaced** is the needle at its first place. -/
theorem replaceFirst_of_standsFirst (h : StandsFirst needle cs before behind) (new : List Char) :
    replaceFirst needle new cs = before ++ new ++ behind := by
  induction cs generalizing before with
  | nil =>
      obtain ⟨hfront, rfl⟩ := List.append_eq_nil_iff.mp h.place.symm
      obtain ⟨rfl, rfl⟩ := List.append_eq_nil_iff.mp hfront
      exact (List.append_nil new).symm
  | cons c cs ih =>
      rw [replaceFirst]
      split
      · next tail htail =>
          have hbegins : StandsFirst needle (c :: cs) [] tail := ⟨after?_eq_some_iff.mp htail, fun _ _ _ => Nat.zero_le _⟩
          obtain ⟨rfl, rfl⟩ := h.unique hbegins
          rfl
      · next hnone =>
          have hplain : ∀ tail, c :: cs ≠ needle ++ tail := fun tail e => by
            rw [after?_eq_some_iff.mpr e] at hnone
            cases hnone
          cases before with
          | nil => exact absurd h.place (hplain behind)
          | cons d before =>
              obtain ⟨rfl, -⟩ := List.cons.inj h.place
              exact congrArg (c :: ·) (ih ((standsFirst_cons hplain).mp h))

/-- **More text behind** makes no difference to the first place. -/
theorem StandsFirst.append (h : StandsFirst needle cs before behind) (more : List Char) :
    StandsFirst needle (cs ++ more) before (behind ++ more) := by
  refine ⟨by rw [h.place, List.append_assoc], fun front back e => Nat.le_of_not_lt fun hlt => ?_⟩
  -- an earlier place would not reach into what stands behind
  have hlength := congrArg List.length h.place
  simp only [List.length_append] at hlength
  have hbegins : front ++ needle <+: cs := by
    refine List.prefix_of_prefix_length_le ⟨back, e.symm⟩ (List.prefix_append cs more) ?_
    rw [List.length_append]
    omega
  obtain ⟨tail, htail⟩ := hbegins
  exact absurd (h.first front tail htail.symm) (Nat.not_le_of_lt hlt)

/-- What is put in its place brings its own characters only. -/
theorem mem_of_mem_replaceFirst {old new : List Char} (h : c ∈ replaceFirst old new cs) : c ∈ new ∨ c ∈ cs := by
  induction cs with
  | nil =>
      rw [replaceFirst] at h
      split at h
      · exact .inl h
      · cases h
  | cons d cs ih =>
      rw [replaceFirst] at h
      split at h
      · next tail htail =>
          rw [after?_eq_some_iff.mp htail]
          exact (List.mem_append.mp h).imp_right fun hmem => List.mem_append_right old hmem
      · rcases List.mem_cons.mp h with rfl | hmem
        · exact .inr List.mem_cons_self
        · exact (ih hmem).imp_right fun hmem => List.mem_cons_of_mem d hmem

/-! ## 3. Parts between separators -/

/-- A text has no separator, or a part in front of its first one and the rest behind. -/
theorem parts_induction (sep : Char) {motive : List Char → Prop} (last : ∀ x, sep ∉ x → motive x)
    (part : ∀ x y, sep ∉ x → motive y → motive (x ++ sep :: y)) (cs : List Char) : motive cs := by
  by_cases h : sep ∈ cs
  · obtain ⟨x, y, e, hx⟩ := List.eq_append_cons_of_mem h
    have hshorter : y.length < cs.length := by
      rw [e, List.length_append, List.length_cons]
      omega
    rw [e]
    exact part x y hx (parts_induction sep last part y)
  · exact last cs h
termination_by cs.length

theorem splitOn_of_not_mem (h : sep ∉ cs) : splitOn sep cs = [cs] := by
  induction cs with
  | nil => rfl
  | cons d cs ih =>
      rw [List.mem_cons, not_or] at h
      rw [splitOn, if_neg (Ne.symm h.1), ih h.2]

theorem splitOn_append_cons (h : sep ∉ x) (y : List Char) : splitOn sep (x ++ sep :: y) = x :: splitOn sep y := by
  induction x with
  | nil => rw [List.nil_append, splitOn, if_pos rfl]
  | cons d x ih =>
      rw [List.mem_cons, not_or] at h
      rw [List.cons_append, splitOn, if_neg (Ne.symm h.1), ih h.2]

/-- A part has the characters of the text, but no separator. -/
theorem mem_of_mem_splitOn (h : x ∈ splitOn sep cs) (hc : c ∈ x) : c ∈ cs ∧ c ≠ sep := by
  induction cs using parts_induction sep with
  | last y hy =>
      rw [splitOn_of_not_mem hy, List.mem_singleton] at h
      subst h
      exact ⟨hc, fun e => hy (e ▸ hc)⟩
  | part y z hy ih =>
      rw [splitOn_append_cons hy, List.mem_cons] at h
      rcases h with rfl | h
      · exact ⟨List.mem_append_left _ hc, fun e => hy (e ▸ hc)⟩
      · obtain ⟨hmem, hne⟩ := ih h
        exact ⟨by simp [hmem], hne⟩

/-- Every other character of the text is in a part. -/
theorem exists_mem_splitOn (hc : c ∈ cs) (hne : c ≠ sep) : ∃ x ∈ splitOn sep cs, c ∈ x := by
  induction cs using parts_induction sep with
  | last y hy => exact ⟨y, by rw [splitOn_of_not_mem hy, List.mem_singleton], hc⟩
  | part y z hy ih =>
      rw [splitOn_append_cons hy]
      rw [List.mem_append, List.mem_cons] at hc
      rcases hc with hc | rfl | hc
      · exact ⟨y, List.mem_cons_self, hc⟩
      · exact absurd rfl hne
      · obtain ⟨x, hx, hcx⟩ := ih hc
        exact ⟨x, List.mem_cons_of_mem _ hx, hcx⟩

end StepRunner.Text
