import StepRunner.Proofs.Number.Shortest

/-!
# Whole numbers and quotients

A number of the format has 53 bits. What a quotient comes to when it is rounded, and of that the whole part, is
known from the leading bits of the number.

* `IsRounded.truncate?_eq_some_iff`: the whole part is what the number reaches;
* `IsRounded.reaches_succ_iff`: between two neighbours of the format there is no number;
* `units_of_dvd`, `lt_units_of_not_dvd`: which whole numbers are of the format;
* `truncate?_quotient_iff`, `truncate?_quotient`: whether a quotient keeps its whole part, and what it comes to.
-/

namespace StepRunner.Binary64

open Number

variable {negative : Bool} {num den bound m p e g k c n : Nat} {x : Binary64}

/-! ## 1. Numbers that are rounded -/

theorem twoTo_eq_mul {l i j : Nat} (h : i + j = l) : twoTo l = twoTo i * twoTo j := h ▸ twoTo_add i j

theorem truncate?_eq_none_iff (h : x ≠ .nan) : x.truncate? = none ↔ x.isInfinite = true := by
  cases x with
  | finite => exact ⟨nofun, nofun⟩
  | infinite => exact ⟨fun _ => rfl, fun _ => rfl⟩
  | nan => exact absurd rfl h

theorem pack_ne_nan (negative : Bool) (m p : Nat) : pack negative m p ≠ .nan := by
  unfold pack
  split
  · exact Binary64.noConfusion
  · exact Binary64.noConfusion

theorem ofUnits_ne_nan (hd : 0 < den) : ofUnits negative num den ≠ .nan := by
  obtain ⟨p, -, -, hx⟩ := ofUnits_spec negative num hd
  rcases hx with ⟨-, hx⟩ | ⟨-, hx⟩
  · exact hx ▸ pack_ne_nan _ _ _
  · exact hx ▸ pack_ne_nan _ _ _

theorem unitsPerOne_pos : 0 < unitsPerOne := by
  unfold unitsPerOne
  exact twoTo_pos 1074

theorem twoTo_add_units (n : Nat) : twoTo (n + 1074) = twoTo n * unitsPerOne := by
  unfold unitsPerOne
  exact twoTo_add n 1074

theorem truncate?_pack_eq_some_iff : (pack false m p).truncate? = some (n : Int) ↔
    (pack false m p).Reaches (n * unitsPerOne) ∧ ¬ (pack false m p).Reaches ((n + 1) * unitsPerOne) := by
  unfold pack
  split
  · exact ⟨nofun, fun h => absurd trivial h.2⟩
  · simp only [truncate?, Reaches, Bool.false_eq_true, if_false, Option.some.injEq, Nat.cast_inj, Nat.not_le]
    rw [Nat.div_eq_iff unitsPerOne_pos, Nat.add_mul]
    have := unitsPerOne_pos
    omega

/-- A number that is not negative, as rounding makes it. -/
inductive IsRounded : Binary64 → Prop where
  | quotient (c : Nat) {d : Nat} (hd : 0 < d) : IsRounded (ofUnits false c d)
  | beyond : IsRounded (infinite false)

/-- **The integer part** of a number that was rounded is what the number reaches. -/
theorem IsRounded.truncate?_eq_some_iff (h : IsRounded x) : x.truncate? = some (n : Int) ↔
    x.Reaches (n * unitsPerOne) ∧ ¬ x.Reaches ((n + 1) * unitsPerOne) := by
  cases h with
  | quotient c hd =>
      obtain ⟨p, -, -, ⟨-, hx⟩ | ⟨-, hx⟩⟩ := ofUnits_spec false c hd
      · exact hx ▸ truncate?_pack_eq_some_iff
      · exact hx ▸ truncate?_pack_eq_some_iff
  | beyond => exact ⟨nofun, fun h => absurd trivial h.2⟩

/-- **Between two neighbours** of the format there is no number: what reaches beyond the one reaches the other. -/
theorem IsRounded.reaches_succ_iff (h : IsRounded x) (hk : twoTo 52 ≤ k) (hlow : k * twoTo e < bound)
    (hhigh : bound ≤ (k + 1) * twoTo e) : x.Reaches bound ↔ x.Reaches ((k + 1) * twoTo e) := by
  refine ⟨fun hbound => ?_, fun hnext => hnext.mono hhigh⟩
  cases h with
  | beyond => exact trivial
  | @quotient c d hd =>
      cases hx : ofUnits false c d with
      | nan => exact absurd hx (ofUnits_ne_nan hd)
      | infinite sign => exact trivial
      | finite sign m p =>
          obtain ⟨hm, -⟩ := significand_lt hd hx
          rw [hx] at hbound
          have hbound : bound ≤ m * twoTo p := hbound
          change (k + 1) * twoTo e ≤ m * twoTo p
          rcases Nat.lt_or_ge p e with hlt | hge
          · have hsmall : m * twoTo p < k * twoTo e :=
              calc m * twoTo p
                  < twoTo 53 * twoTo p := Nat.mul_lt_mul_of_pos_right hm (twoTo_pos p)
                _ = twoTo 52 * twoTo (p + 1) := by rw [twoTo_add p 1, twoTo_add 52 1]; ring
                _ ≤ twoTo 52 * twoTo e := Nat.mul_le_mul_left _ (twoTo_le hlt)
                _ ≤ k * twoTo e := Nat.mul_le_mul_right _ hk
            omega
          · have hmul : m * twoTo p = m * twoTo (p - e) * twoTo e := by
              rw [Nat.mul_assoc, ← twoTo_add, Nat.sub_add_cancel hge]
            rw [hmul] at hbound ⊢
            exact Nat.mul_le_mul_right _ (Nat.lt_of_mul_lt_mul_right (Nat.lt_of_lt_of_le hlow hbound))

/-- In multiples of a unit a remainder of one counts as a unit. -/
theorem mul_add_le_mul_iff {a b r u : Nat} (hu : 0 < u) (hr : r ≤ 1) : a * u + r ≤ b * u ↔ a + r ≤ b := by
  rcases Nat.le_one_iff_eq_zero_or_eq_one.mp hr with rfl | rfl
  · exact Nat.mul_le_mul_right_iff hu
  · exact Nat.mul_lt_mul_right hu

theorem roundHalfEven_scale (hc : 0 < c) (num den : Nat) :
    roundHalfEven (c * num) (c * den) = roundHalfEven num den := by
  unfold roundHalfEven
  rw [Nat.mul_div_mul_left _ _ hc, Nat.mul_mod_mul_left]
  simp only [Nat.mul_left_comm 2 c, Nat.mul_lt_mul_left hc]

/-- The terms of a quotient make no difference to what it is rounded to. -/
theorem ofUnits_scale (hc : 0 < c) (num den : Nat) :
    ofUnits negative (c * num) (c * den) = ofUnits negative num den := by
  unfold ofUnits
  simp only [Nat.mul_div_mul_left _ _ hc, Nat.mul_assoc c, roundHalfEven_scale hc]

/-! ## 2. Leading bits -/

/-- The leading 53 bits of a number, with zeros behind a shorter one. -/
def leading (k : Nat) : Nat :=
  if k.log2 ≤ 52 then k * twoTo (52 - k.log2) else k / twoTo (k.log2 - 52)

theorem log2_lt_of_lt (h : k ≠ 0) (htop : k < twoTo e) : k.log2 < e := by
  by_contra hge
  exact absurd ((le_log2_iff h e).mp (Nat.le_of_not_lt hge)) (Nat.not_le.mpr htop)

theorem log2_bounds (h : k ≠ 0) : twoTo k.log2 ≤ k ∧ k < twoTo (k.log2 + 1) :=
  ⟨Nat.log2_self_le h, Nat.lt_log2_self⟩

theorem leading_bounds (h : k ≠ 0) : twoTo 52 ≤ leading k ∧ leading k < twoTo 53 := by
  obtain ⟨hlow, hhigh⟩ := log2_bounds h
  unfold leading
  split
  · next hl =>
      have hpos := twoTo_pos (52 - k.log2)
      rw [twoTo_eq_mul (Nat.add_sub_cancel' hl), twoTo_eq_mul (show k.log2 + 1 + (52 - k.log2) = 53 by omega)]
      exact ⟨Nat.mul_le_mul_right _ hlow, Nat.mul_lt_mul_of_pos_right hhigh hpos⟩
  · next hl =>
      have hpos := twoTo_pos (k.log2 - 52)
      rw [Nat.le_div_iff_mul_le hpos, Nat.div_lt_iff_lt_mul hpos, ← twoTo_add, ← twoTo_add]
      rw [show 52 + (k.log2 - 52) = k.log2 by omega, show 53 + (k.log2 - 52) = k.log2 + 1 by omega]
      exact ⟨hlow, hhigh⟩

/-- In smallest units the leading bits of a number of at most 53 bits stand for all of it. -/
theorem units_of_log2_le (hl : k.log2 ≤ 52) :
    unitsPerOne = twoTo (52 - k.log2) * twoTo (1022 + k.log2) ∧
      k * unitsPerOne = leading k * twoTo (1022 + k.log2) := by
  have hone : unitsPerOne = twoTo (52 - k.log2) * twoTo (1022 + k.log2) := twoTo_eq_mul (by omega)
  refine ⟨hone, ?_⟩
  rw [leading, if_pos hl, Nat.mul_assoc, ← hone]

/-- The unit of the leading bits of a longer number is a whole number of ones. -/
theorem units_of_le_log2 (hl : 52 ≤ k.log2) :
    twoTo (1022 + k.log2) = twoTo (k.log2 - 52) * unitsPerOne ∧ leading k = k / twoTo (k.log2 - 52) := by
  refine ⟨twoTo_eq_mul (by omega), ?_⟩
  unfold leading
  split
  · next h =>
      have hlog : k.log2 = 52 := by omega
      rw [hlog]
      exact (Nat.mul_one k).trans (Nat.div_one k).symm
  · rfl

/-- A number that has zeros behind its leading bits is a number of the format. -/
theorem units_of_dvd (h : twoTo (k.log2 - 52) ∣ k) : k * unitsPerOne = leading k * twoTo (1022 + k.log2) := by
  rcases Nat.lt_or_ge k.log2 52 with hlt | hge
  · exact (units_of_log2_le hlt.le).2
  · obtain ⟨hunit, hleading⟩ := units_of_le_log2 hge
    rw [hunit, hleading, ← Nat.mul_assoc, Nat.div_mul_cancel h]

/-- What stands behind the leading bits is less than one of their units. -/
theorem succ_units_le (hl : 52 ≤ k.log2) : (k + 1) * unitsPerOne ≤ (leading k + 1) * twoTo (1022 + k.log2) := by
  obtain ⟨hunit, hleading⟩ := units_of_le_log2 hl
  rw [hunit, hleading, ← Nat.mul_assoc]
  refine Nat.mul_le_mul_right _ ?_
  rw [Nat.mul_comm]
  exact Nat.lt_mul_div_succ k (twoTo_pos _)

/-- Other factors than two stand in the leading bits. -/
theorem dvd_leading (hdvd : twoTo (k.log2 - 52) ∣ k) (hc : c ∣ k) (hodd : Nat.Coprime c 2) : c ∣ leading k := by
  unfold leading
  split
  · exact hc.mul_right _
  · refine Nat.Coprime.dvd_of_dvd_mul_right ?_ (Nat.div_mul_cancel hdvd ▸ hc)
    exact hodd.pow_right _

theorem dvd_of_log2_le (hl : k.log2 ≤ 52) : twoTo (k.log2 - 52) ∣ k := by
  rw [Nat.sub_eq_zero_of_le hl]
  exact one_dvd k

theorem dvd_of_lt (h : k < twoTo 52) : twoTo (k.log2 - 52) ∣ k := by
  rcases Nat.eq_zero_or_pos k with rfl | hpos
  · exact dvd_zero _
  · exact dvd_of_log2_le (log2_lt_of_lt hpos.ne' h).le

theorem le_log2_of_not_dvd (h : ¬ twoTo (k.log2 - 52) ∣ k) : 52 ≤ k.log2 :=
  Nat.le_of_not_le fun hl => h (dvd_of_log2_le hl)

theorem lt_units_of_not_dvd (h : ¬ twoTo (k.log2 - 52) ∣ k) : leading k * twoTo (1022 + k.log2) < k * unitsPerOne := by
  obtain ⟨hunit, hleading⟩ := units_of_le_log2 (le_log2_of_not_dvd h)
  rw [hunit, hleading, ← Nat.mul_assoc]
  refine Nat.mul_lt_mul_of_pos_right ?_ unitsPerOne_pos
  exact Nat.lt_of_le_of_ne (Nat.div_mul_le_self k _) fun heq => h ⟨k / twoTo (k.log2 - 52), by rw [Nat.mul_comm, heq]⟩

theorem lt_succ_units (k : Nat) : leading k * twoTo (1022 + k.log2) < (k + 1) * unitsPerOne := by
  have hsucc : k * unitsPerOne < (k + 1) * unitsPerOne :=
    Nat.mul_lt_mul_of_pos_right (Nat.lt_succ_self k) unitsPerOne_pos
  by_cases h : twoTo (k.log2 - 52) ∣ k
  · rwa [← units_of_dvd h]
  · exact (lt_units_of_not_dvd h).trans hsucc

/-- Behind a number of 53 bits or more the next one is reached by what reaches the next of the format. -/
theorem IsRounded.reaches_succ_units_iff (h : IsRounded x) (hk : k ≠ 0) (hl : 52 ≤ k.log2) :
    x.Reaches ((k + 1) * unitsPerOne) ↔ x.Reaches ((leading k + 1) * twoTo (1022 + k.log2)) :=
  h.reaches_succ_iff (leading_bounds hk).1 (lt_succ_units k) (succ_units_le hl)

/-- **A whole number that is not of the format** is the integer part of none: what reaches it reaches the next one. -/
theorem IsRounded.truncate?_ne_of_not_dvd (h : IsRounded x) (hdvd : ¬ twoTo (n.log2 - 52) ∣ n) :
    x.truncate? ≠ some (n : Int) := by
  have hn : n ≠ 0 := by
    rintro rfl
    exact hdvd (dvd_zero _)
  have hl := le_log2_of_not_dvd hdvd
  have hle : n * unitsPerOne ≤ (n + 1) * unitsPerOne := Nat.mul_le_mul_right _ (Nat.le_succ n)
  rw [ne_eq, h.truncate?_eq_some_iff, h.reaches_succ_units_iff hn hl,
    h.reaches_succ_iff (leading_bounds hn).1 (lt_units_of_not_dvd hdvd) (hle.trans (succ_units_le hl))]
  exact fun hboth => hboth.2 hboth.1

/-! ## 3. The whole part of a quotient -/

/-- A whole number with a rest behind it is rounded to the next one: the rest is nearer to it than half a unit. -/
def RoundsUp (n rest den : Nat) : Prop :=
  n.log2 ≤ 52 ∧ twoTo (53 - n.log2) * (den - rest) + (n + 1) * twoTo (52 - n.log2) % 2 ≤ den

instance (n rest den : Nat) : Decidable (RoundsUp n rest den) := inferInstanceAs (Decidable (_ ∧ _))

/-- A number that is not beyond the quotient is reached, if it is of the format. -/
theorem reaches_whole (hd : 0 < den) (hdvd : twoTo (n.log2 - 52) ∣ n) (hn : n * den ≤ num) :
    (ofUnits negative (num * unitsPerOne) den).Reaches (n * unitsPerOne) := by
  rcases Nat.eq_zero_or_pos n with rfl | hpos
  · have hzero : (ofUnits negative (num * unitsPerOne) den).Reaches (0 * twoTo 0) :=
      reaches_of_le hd (Nat.zero_le _) (by rw [Nat.zero_mul]; exact Nat.zero_le _)
    rwa [Nat.zero_mul] at hzero ⊢
  · rw [units_of_dvd hdvd]
    refine reaches_of_le hd (leading_bounds hpos.ne').2.le ?_
    rw [Nat.mul_left_comm, ← units_of_dvd hdvd, ← Nat.mul_assoc, Nat.mul_comm den]
    exact Nat.mul_le_mul_right _ hn

/-- A quotient in units of its leading bits, and what stands behind them. -/
theorem units_of_quotient {rest : Nat} (hdvd : twoTo (n.log2 - 52) ∣ n) (hnum : num = n * den + rest) :
    num * unitsPerOne = leading n * (den * twoTo (1022 + n.log2)) + rest * unitsPerOne := by
  rw [hnum, Nat.add_mul, Nat.mul_right_comm, units_of_dvd hdvd, Nat.mul_right_comm, Nat.mul_assoc]

/-- **Where the next whole number is reached** by a quotient that has at most 53 bits in front: the next number is one
    of the format, too. -/
theorem reaches_next_iff_of_log2_le {rest : Nat} (hd : 0 < den) (hn : n ≠ 0) (hl : n.log2 ≤ 52)
    (hnum : num = n * den + rest) (hrest : rest < den) :
    (ofUnits negative (num * unitsPerOne) den).Reaches ((n + 1) * unitsPerOne) ↔
      twoTo (53 - n.log2) * (den - rest) + (n + 1) * twoTo (52 - n.log2) % 2 ≤ den := by
  obtain ⟨hlow, -⟩ := leading_bounds hn
  obtain ⟨hone, -⟩ := units_of_log2_le hl
  have hunits := units_of_quotient (dvd_of_log2_le hl) hnum
  have hE := twoTo_pos (1022 + n.log2)
  have hj := twoTo_pos (52 - n.log2)
  have hnext : (n + 1) * unitsPerOne = (n + 1) * twoTo (52 - n.log2) * twoTo (1022 + n.log2) := by
    rw [Nat.mul_assoc, ← hone]
  have hlead : (n + 1) * twoTo (52 - n.log2) = leading n + twoTo (52 - n.log2) := by
    rw [leading, if_pos hl, Nat.add_mul, Nat.one_mul]
  have htop : (n + 1) * twoTo (52 - n.log2) ≤ twoTo 53 := by
    rw [twoTo_eq_mul (show n.log2 + 1 + (52 - n.log2) = 53 by omega)]
    exact Nat.mul_le_mul_right _ (log2_bounds hn).2
  have h53 : twoTo (53 - n.log2) = 2 * twoTo (52 - n.log2) := by
    rw [show 53 - n.log2 = 1 + (52 - n.log2) by omega, twoTo_add]
    rfl
  rw [hnext, reaches_ofUnits hd (by omega) htop (by omega), h53, hunits, hone]
  generalize (n + 1) * twoTo (52 - n.log2) = b at hlead ⊢
  obtain ⟨gap, hgap⟩ := Nat.exists_eq_add_of_lt hrest
  have hsplit : 2 * (b * (den * twoTo (1022 + n.log2))) =
      2 * (leading n * (den * twoTo (1022 + n.log2))) + 2 * (rest * (twoTo (52 - n.log2) * twoTo (1022 + n.log2))) +
        2 * twoTo (52 - n.log2) * (den - rest) * twoTo (1022 + n.log2) := by
    rw [hlead, show den - rest = gap + 1 by omega, hgap]
    ring
  rw [hsplit]
  refine Iff.trans ?_ (mul_add_le_mul_iff hE (Nat.le_of_lt_succ (Nat.mod_lt b (by decide))))
  omega

/-- A quotient that has more bits in front never reaches the next whole number: the next number of the format is a
    unit away, and a unit is two or more. -/
theorem not_reaches_next {rest : Nat} (hd : 0 < den) (hdvd : twoTo (n.log2 - 52) ∣ n) (hn : n ≠ 0) (hl : 53 ≤ n.log2)
    (htop : n < twoTo 1024) (hnum : num = n * den + rest) (hrest : rest < den) :
    ¬ (ofUnits false (num * unitsPerOne) den).Reaches ((n + 1) * unitsPerOne) := by
  obtain ⟨hlow, hhigh⟩ := leading_bounds hn
  have hlog := log2_lt_of_lt hn htop
  rw [(IsRounded.quotient _ hd).reaches_succ_units_iff hn (Nat.le_of_succ_le hl),
    reaches_ofUnits hd (Nat.lt_add_one_of_le hlow) hhigh (by omega), units_of_quotient hdvd hnum]
  have htwo : 2 ≤ twoTo (n.log2 - 52) := twoTo_le (show 1 ≤ n.log2 - 52 by omega)
  have hunit : 2 * (rest * unitsPerOne) < den * twoTo (1022 + n.log2) :=
    calc 2 * (rest * unitsPerOne)
        < 2 * (den * unitsPerOne) :=
          Nat.mul_lt_mul_of_pos_left (Nat.mul_lt_mul_of_pos_right hrest unitsPerOne_pos) (by decide)
      _ ≤ twoTo (n.log2 - 52) * (den * unitsPerOne) := Nat.mul_le_mul_right _ htwo
      _ = den * twoTo (1022 + n.log2) := by
          rw [(units_of_le_log2 (Nat.le_of_succ_le hl)).1, Nat.mul_left_comm]
  have hnext := Nat.add_one_mul (leading n) (den * twoTo (1022 + n.log2))
  omega

/-- **Where the next whole number is reached** by a quotient, for numbers of the format. -/
theorem reaches_next_iff {rest : Nat} (hd : 0 < den) (hdvd : twoTo (n.log2 - 52) ∣ n) (hn : n ≠ 0)
    (htop : n < twoTo 1024) (hnum : num = n * den + rest) (hrest : rest < den) :
    (ofUnits false (num * unitsPerOne) den).Reaches ((n + 1) * unitsPerOne) ↔ RoundsUp n rest den := by
  rcases Nat.lt_or_ge n.log2 53 with hlt | hge
  · have hl : n.log2 ≤ 52 := Nat.le_of_lt_succ hlt
    rw [reaches_next_iff_of_log2_le hd hn hl hnum hrest, RoundsUp, and_iff_right hl]
  · exact iff_of_false (not_reaches_next hd hdvd hn hge htop hnum hrest) fun h => absurd h.1 (Nat.not_le.mpr hge)

/-- What lies below a whole number of at most 53 bits does not reach the next one. -/
theorem not_reaches_beyond (hd : 0 < den) (hn : n ≠ 0) (hl : n.log2 ≤ 52) (hnum : num < n * den) :
    ¬ (ofUnits negative (num * unitsPerOne) den).Reaches ((n + 1) * unitsPerOne) := by
  obtain ⟨hlow, hhigh⟩ := leading_bounds hn
  obtain ⟨hone, hunits⟩ := units_of_log2_le hl
  intro h
  have hnear : (leading n + 1) * twoTo (1022 + n.log2) ≤ (n + 1) * unitsPerOne := by
    rw [Nat.add_one_mul, Nat.add_one_mul, ← hunits]
    exact Nat.add_le_add_left (hone ▸ Nat.le_mul_of_pos_left _ (twoTo_pos _)) _
  have hreach := h.mono hnear
  have hnext := Nat.add_one_mul (leading n) (den * twoTo (1022 + n.log2))
  rw [reaches_ofUnits hd (Nat.lt_add_one_of_le hlow) hhigh (by omega)] at hreach
  have hbelow : num * unitsPerOne < leading n * (den * twoTo (1022 + n.log2)) := by
    rw [Nat.mul_left_comm, ← hunits, ← Nat.mul_assoc, Nat.mul_comm den]
    exact Nat.mul_lt_mul_of_pos_right hnum unitsPerOne_pos
  omega

/-- A quotient of a number that is too small for its divisor does not reach one. -/
theorem not_reaches_one_of_lt (hd : 0 < den) (hsmall : den < twoTo 54) (hnum : num < den) :
    ¬ (ofUnits negative (num * unitsPerOne) den).Reaches (1 * unitsPerOne) := by
  have hone : unitsPerOne = twoTo 53 * twoTo 1021 := twoTo_add 53 1021
  have hunits : 1 * unitsPerOne = twoTo 53 * twoTo 1021 := (Nat.one_mul _).trans hone
  rw [hunits, reaches_ofUnits hd (by decide) (Nat.le_refl _) (by decide), Nat.not_le]
  have hle : (num + 1) * unitsPerOne ≤ den * unitsPerOne := Nat.mul_le_mul_right _ hnum
  have hden : den * twoTo 1021 < 2 * unitsPerOne := by
    rw [hone, ← Nat.mul_assoc]
    exact Nat.mul_lt_mul_of_pos_right hsmall (twoTo_pos 1021)
  have hmul : twoTo 53 * (den * twoTo 1021) = den * unitsPerOne := by
    rw [hone, Nat.mul_left_comm]
  rw [Nat.add_one_mul] at hle
  rw [hmul]
  omega

theorem not_roundsUp_zero {rest : Nat} (hsmall : den < twoTo 53) (hrest : rest < den) : ¬ RoundsUp 0 rest den := by
  intro h
  have hle : twoTo 53 * 1 ≤ twoTo 53 * (den - rest) := Nat.mul_le_mul_left _ (by omega)
  have hfar := h.2
  rw [show twoTo (53 - Nat.log2 0) = twoTo 53 from rfl] at hfar
  omega

theorem not_roundsUp_whole (hd : 0 < den) : ¬ RoundsUp n 0 den := by
  intro h
  have htwo : 2 ≤ twoTo (53 - n.log2) := twoTo_le (show 1 ≤ 53 - n.log2 by have := h.1; omega)
  have hle : 2 * den ≤ twoTo (53 - n.log2) * (den - 0) := Nat.mul_le_mul htwo (Nat.le_refl den)
  have hfar := h.2
  omega

/-- A rest of three digits at most is far enough from the next whole number, where the number has less than 45 bits. -/
theorem not_roundsUp_of_lt {rest : Nat} (hn : n < twoTo 44) (hrest : rest < den) (hden : den < twoTo 10) :
    ¬ RoundsUp n rest den := by
  intro h
  have hlog : n.log2 ≤ 43 := by
    rcases Nat.eq_zero_or_pos n with rfl | hpos
    · exact Nat.zero_le _
    · exact Nat.le_of_lt_succ (log2_lt_of_lt hpos.ne' hn)
  have hfar : twoTo 10 ≤ twoTo (53 - n.log2) * (den - rest) :=
    (twoTo_le (show 10 ≤ 53 - n.log2 by omega)).trans (Nat.le_mul_of_pos_right _ (by omega))
  have hnear := h.2
  omega

/-- **Whether a quotient keeps its whole part** when it is rounded: if that is of the format, and the rest not too near
    to the next whole number. -/
theorem truncate?_quotient_iff (hd : 0 < den) (hsmall : den < twoTo 53) (htop : num / den < twoTo 1024) :
    (ofUnits false (num * unitsPerOne) den).truncate? = some ((num / den : Nat) : Int) ↔
      twoTo ((num / den).log2 - 52) ∣ num / den ∧ ¬ RoundsUp (num / den) (num % den) den := by
  have hrounded : IsRounded (ofUnits false (num * unitsPerOne) den) := .quotient _ hd
  have hnum := Nat.div_add_mod' num den
  have hrest := Nat.mod_lt num hd
  generalize num / den = n at *
  generalize num % den = rest at *
  by_cases hdvd : twoTo (n.log2 - 52) ∣ n
  · rw [hrounded.truncate?_eq_some_iff, and_iff_right (reaches_whole hd hdvd (by omega)), and_iff_right hdvd]
    rcases Nat.eq_zero_or_pos n with rfl | hn
    · rw [Nat.zero_add]
      exact iff_of_true (not_reaches_one_of_lt hd (hsmall.trans (by decide)) (by omega)) (not_roundsUp_zero hsmall hrest)
    · rw [reaches_next_iff hd hdvd hn.ne' htop hnum.symm hrest]
  · exact iff_of_false (hrounded.truncate?_ne_of_not_dvd hdvd) fun h => hdvd h.1

/-- **What a quotient comes to** whose whole part has less than 53 bits: its whole part, or the next number. -/
theorem truncate?_quotient (hd : 0 < den) (hsmall : den < twoTo 53) (htop : num / den < twoTo 52) :
    (ofUnits false (num * unitsPerOne) den).truncate? =
      some ((num / den + if RoundsUp (num / den) (num % den) den then 1 else 0 : Nat) : Int) := by
  have hdvd : twoTo ((num / den).log2 - 52) ∣ num / den := dvd_of_lt htop
  have htop' : num / den < twoTo 1024 := htop.trans_le (twoTo_le (by decide))
  by_cases hup : RoundsUp (num / den) (num % den) den
  · have hn : num / den ≠ 0 := by
      intro h
      rw [h] at hup
      exact not_roundsUp_zero hsmall (Nat.mod_lt num hd) hup
    have hlog : (num / den + 1).log2 ≤ 52 :=
      Nat.le_of_lt_succ (log2_lt_of_lt (Nat.succ_ne_zero _) (Nat.lt_of_le_of_lt htop (show twoTo 52 < twoTo 53 by decide)))
    rw [if_pos hup, (IsRounded.quotient _ hd).truncate?_eq_some_iff]
    exact ⟨(reaches_next_iff hd hdvd hn htop' (Nat.div_add_mod' num den).symm (Nat.mod_lt num hd)).mpr hup,
      not_reaches_beyond hd (Nat.succ_ne_zero _) hlog (Nat.lt_mul_of_div_lt (Nat.lt_succ_self _) hd)⟩
  · rw [if_neg hup, Nat.add_zero, truncate?_quotient_iff hd hsmall htop']
    exact ⟨hdvd, hup⟩

end StepRunner.Binary64
