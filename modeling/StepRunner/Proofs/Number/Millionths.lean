import StepRunner.Proofs.Number.Thousandfold

/-!
# Millionths a thousand times

A time between two moments is a whole number of microseconds. Told in milliseconds by way of seconds in binary64
it should keep the whole thousands of it.

* `truncate?_millionths_iff`: of which numbers of millionths the product keeps the whole thousandths (`Told`);
* `truncate?_millionths`: below `2 ^ 33` seconds it does, but for whole thousandths that fall short.
-/

namespace StepRunner.Binary64

open Number

variable {d p s i : Nat}

/-- How many places so many millionths are shifted, for a quotient of 53 bits. -/
def places (d : Nat) : Nat := 72 - (d * twoTo 20 / 1000000).log2

/-- A thousand times the quotient of so many millionths, shifted, and half a unit of what it is rounded to. The unit
    is that of the whole thousandths, shifted as well. -/
def thousandRounded (d : Nat) : Nat :=
  1000 * roundHalfEven (d * twoTo (places d)) 1000000 + if d / 1000 * twoTo (places d) < twoTo 62 then 256 else 512

/-- Of so many millionths the whole thousandths come out, a thousand times and rounded. -/
def Told (d : Nat) : Prop :=
  d / 1000 * twoTo (places d) ≤ thousandRounded d ∧ thousandRounded d < (d / 1000 + 1) * twoTo (places d)

instance (d : Nat) : Decidable (Told d) := inferInstanceAs (Decidable (_ ∧ _))

theorem places_le (d : Nat) : places d ≤ 72 := Nat.sub_le _ _

theorem lt_of_shift (hd : d < 1000000 * twoTo i) : d * twoTo 20 / 1000000 < twoTo (i + 20) := by
  rw [Nat.div_lt_iff_lt_mul (by decide), twoTo_add, Nat.mul_right_comm, Nat.mul_comm (twoTo i)]
  exact Nat.mul_lt_mul_of_pos_right hd (twoTo_pos 20)

theorem shift_ne_zero (hd : 0 < d) : d * twoTo 20 / 1000000 ≠ 0 := by
  have hone : 1000000 ≤ 1 * twoTo 20 := by decide
  exact (Nat.div_pos (hone.trans (Nat.mul_le_mul_right _ hd)) (by decide)).ne'

theorem le_places (hd : 0 < d) (htop : d < 1000000 * twoTo i) (hi : i ≤ 52) : 53 - i ≤ places d := by
  have hlog := log2_lt_of_lt (shift_ne_zero hd) (lt_of_shift htop)
  unfold places
  omega

/-- Shifted by its places, a number of millionths has a quotient of 53 bits. -/
theorem places_spec (hd : 0 < d) (htop : d < 1000000 * twoTo 42) :
    1000000 * twoTo 52 ≤ d * twoTo (places d) ∧ d * twoTo (places d) < 1000000 * twoTo 53 := by
  have hshift := shift_ne_zero hd
  have hlog := log2_lt_of_lt hshift (lt_of_shift htop)
  obtain ⟨hlow, hhigh⟩ := log2_bounds hshift
  have hplaces : places d + (d * twoTo 20 / 1000000).log2 = 72 := by
    unfold places
    omega
  generalize (d * twoTo 20 / 1000000).log2 = l at *
  rw [Nat.le_div_iff_mul_le (by decide)] at hlow
  rw [Nat.div_lt_iff_lt_mul (by decide)] at hhigh
  have h72 : d * twoTo (places d) * twoTo l = d * twoTo 20 * twoTo 52 := by
    rw [Nat.mul_assoc, ← twoTo_add, hplaces, Nat.mul_assoc, ← twoTo_add]
  have hpos := twoTo_pos l
  refine ⟨?_, ?_⟩
  · rw [← Nat.mul_le_mul_right_iff hpos, h72]
    calc 1000000 * twoTo 52 * twoTo l
        = twoTo l * 1000000 * twoTo 52 := by ring
      _ ≤ d * twoTo 20 * twoTo 52 := Nat.mul_le_mul_right _ hlow
  · rw [← Nat.mul_lt_mul_right hpos, h72]
    calc d * twoTo 20 * twoTo 52
        < twoTo (l + 1) * 1000000 * twoTo 52 := Nat.mul_lt_mul_of_pos_right hhigh (twoTo_pos 52)
      _ = 1000000 * twoTo 53 * twoTo l := by rw [twoTo_add l 1, twoTo_add 52 1]; ring

/-- **Where a whole number is reached** that has less than 53 bits: there are no ties. -/
theorem reaches_whole_iff {m : Nat} (hfit : Fits d 1000000 p) (hm : significand d 1000000 p = m) (hp : p + s = 1074)
    (hs : 11 ≤ s) (hlow : twoTo 61 < i * twoTo s) (hhigh : i * twoTo s ≤ twoTo 63) :
    (thousandfold d 1000000).Reaches (i * unitsPerOne) ↔
      i * twoTo s ≤ 1000 * m + if i * twoTo s ≤ twoTo 62 then 256 else 512 := by
  have hreach {g u : Nat} (hu : twoTo g = u) (hg : g < s) (hlow : twoTo 52 * u < i * twoTo s)
      (hhigh : i * twoTo s ≤ twoTo 53 * u) :
      (thousandfold d 1000000).Reaches (i * unitsPerOne) ↔ 2 * (i * twoTo s) ≤ 2000 * m + u := by
    have hpos : 0 < u := hu ▸ twoTo_pos g
    have hs : i * twoTo s = i * twoTo (s - g) * u := by
      rw [← hu, Nat.mul_assoc, ← twoTo_add, Nat.sub_add_cancel hg.le]
    have hunits : i * unitsPerOne = i * twoTo (s - g) * twoTo (p + g) := by
      rw [Nat.mul_assoc, ← twoTo_eq_mul (show s - g + (p + g) = 1074 by omega), unitsPerOne]
    have heven : i * twoTo (s - g) % 2 = 0 := by
      rw [twoTo_eq_mul (show s - g - 1 + 1 = s - g by omega), ← Nat.mul_assoc]
      exact Nat.mul_mod_left _ 2
    rw [hs] at hlow hhigh
    rw [hunits, reaches_thousandfold (by decide) hfit (Nat.lt_of_mul_lt_mul_right hlow)
      (Nat.le_of_mul_le_mul_right hhigh hpos) (by omega), hm, heven, hu, ← hs, Nat.add_zero]
  have h61 : twoTo 61 = twoTo 52 * 512 := rfl
  have h62 : twoTo 62 = twoTo 53 * 512 := rfl
  have h62' : twoTo 62 = twoTo 52 * 1024 := rfl
  have h63 : twoTo 63 = twoTo 53 * 1024 := rfl
  split
  · next h =>
      rw [hreach (g := 9) (u := 512) rfl (by omega) (h61 ▸ hlow) (h62 ▸ h)]
      omega
  · next h =>
      rw [hreach (g := 10) (u := 1024) rfl (by omega) (h62' ▸ Nat.lt_of_not_le h) (h63 ▸ hhigh)]
      omega

/-- How near the shifted quotient is. -/
theorem thousand_bounds (hd : 0 < d) (htop : d < 1000000 * twoTo 42) : ∃ m, Fits d 1000000 (1074 - places d) ∧
    significand d 1000000 (1074 - places d) = m ∧ roundHalfEven (d * twoTo (places d)) 1000000 = m ∧
      2 * (d * twoTo (places d)) ≤ 2000000 * m + 1000000 ∧ 2000000 * m ≤ 2 * (d * twoTo (places d)) + 1000000 := by
  obtain ⟨hlow, hhigh⟩ := places_spec hd htop
  have hplaces := places_le d
  have h11 := le_places hd htop (by decide)
  have hunits : d * unitsPerOne = d * twoTo (places d) * twoTo (1074 - places d) := by
    rw [Nat.mul_assoc, ← twoTo_eq_mul (show places d + (1074 - places d) = 1074 by omega), unitsPerOne]
  obtain ⟨hfit, hs⟩ := fits_of_eq hunits hlow hhigh (by omega)
  obtain ⟨hbelow, habove⟩ := roundHalfEven_bounds (d * twoTo (places d)) (show 0 < 1000000 by decide)
  exact ⟨_, hfit, hs, rfl, by omega, by omega⟩

/-- Below `2 ^ 33` seconds a number of millionths that is not one of whole thousandths is far enough from them. -/
theorem told_of_not_dvd (hd : 0 < d) (htop : d < 1000000 * twoTo 33) (h : ¬ 1000 ∣ d) : Told d := by
  obtain ⟨m, -, -, hm, hbelow, habove⟩ := thousand_bounds hd (htop.trans_le (Nat.mul_le_mul_left _ (twoTo_le (by decide))))
  have h20 : 1048576 ≤ twoTo (places d) := twoTo_le (le_places hd htop (by decide))
  have hdiv := Nat.div_add_mod d 1000
  have hr := Nat.mod_lt d (show 0 < 1000 by decide)
  have hr0 := Nat.pos_of_ne_zero (mt Nat.dvd_of_mod_eq_zero h)
  unfold Told thousandRounded
  rw [hm]
  generalize d / 1000 = k at *
  generalize d % 1000 = r at *
  generalize twoTo (places d) = X at *
  have hdX : d * X = 1000 * (k * X) + r * X := by
    rw [← hdiv]
    ring
  have hlow : X ≤ r * X := Nat.le_mul_of_pos_left X hr0
  have hhigh : r * X ≤ 999 * X := Nat.mul_le_mul_right X (Nat.le_of_lt_succ hr)
  rw [hdX] at hbelow habove
  rw [Nat.add_mul, Nat.one_mul]
  generalize k * X = J at *
  generalize r * X = R at *
  split
  · omega
  · omega

/-- Less than a thousand millionths are no whole thousandth. -/
theorem not_reaches_one (hd : 0 < d) (hsmall : d < 1000) :
    ¬ (thousandfold d 1000000).Reaches (1 * unitsPerOne) := by
  obtain ⟨m, hfit, hm, -, -, habove⟩ := thousand_bounds hd (hsmall.trans (by decide))
  have h53 := le_places hd (hsmall.trans (show 1000 < 1000000 * twoTo 0 by decide)) (by decide)
  have hplaces := places_le d
  have hunits : 1 * unitsPerOne = twoTo 53 * twoTo (1074 - places d + (places d - 53)) := by
    rw [Nat.one_mul, unitsPerOne]
    exact twoTo_eq_mul (by omega)
  have hX : twoTo (places d) = 9007199254740992 * twoTo (places d - 53) := twoTo_eq_mul (show 53 + _ = _ by omega)
  have hX' : d * twoTo (places d) ≤ 999 * twoTo (places d) := Nat.mul_le_mul_right _ (Nat.le_of_lt_succ hsmall)
  have hpos := twoTo_pos (places d - 53)
  rw [hunits, reaches_thousandfold (by decide) hfit (by decide) (Nat.le_refl _) (by omega), hm,
    show twoTo 53 % 2 = 0 from rfl, show twoTo 53 = 9007199254740992 from rfl]
  generalize twoTo (places d - 53) = T at *
  rw [hX] at hX' habove
  omega

/-- The whole thousandths, shifted as the quotient is, have 61 to 63 bits. -/
theorem whole_bounds (hd : 1000 ≤ d) (htop : d < 1000000 * twoTo 42) :
    twoTo 61 ≤ d / 1000 * twoTo (places d) ∧ d / 1000 * twoTo (places d) < twoTo 63 ∧ places d ≤ 62 := by
  obtain ⟨hlow, hhigh⟩ := places_spec (by omega) htop
  have h52 : twoTo 52 = 4503599627370496 := rfl
  have h53 : twoTo 53 = 9007199254740992 := rfl
  have h61 : twoTo 61 = 2305843009213693952 := rfl
  have h63 : twoTo 63 = 9223372036854775808 := rfl
  have hdiv := Nat.div_add_mod d 1000
  have hr := Nat.mod_lt d (show 0 < 1000 by decide)
  have hk : 1 ≤ d / 1000 := (Nat.le_div_iff_mul_le (by decide)).mpr (by omega)
  have hX : twoTo (places d) ≤ d / 1000 * twoTo (places d) := Nat.le_mul_of_pos_left _ hk
  have hupper : d / 1000 * twoTo (places d) < twoTo 63 := by
    have hle : 1000 * (d / 1000 * twoTo (places d)) ≤ d * twoTo (places d) := by
      rw [← Nat.mul_assoc]
      exact Nat.mul_le_mul_right _ (Nat.mul_div_le d 1000)
    omega
  have hplaces : places d ≤ 62 := by
    by_contra hgt
    have := twoTo_le (show 63 ≤ places d by omega)
    omega
  refine ⟨?_, hupper, hplaces⟩
  have hlt : d * twoTo (places d) < 1000 * (d / 1000 * twoTo (places d)) + 1000 * twoTo (places d) := by
    rw [← Nat.mul_assoc, ← Nat.add_mul]
    exact Nat.mul_lt_mul_of_pos_right (by omega) (twoTo_pos _)
  rcases Nat.lt_or_eq_of_le hk with htwo | hone
  · have hX2 : 2 * twoTo (places d) ≤ d / 1000 * twoTo (places d) := Nat.mul_le_mul_right _ htwo
    omega
  · -- one thousandth is a power of two, and no other lies so near
    rw [← hone, Nat.one_mul] at hlt ⊢
    refine twoTo_le ?_
    by_contra hgt
    have h60 : twoTo 60 = 1152921504606846976 := rfl
    have := twoTo_le (show places d ≤ 60 by omega)
    omega

/-- A whole thousandth is reached from half a unit below it on. -/
theorem reaches_whole_thousandths_iff (hd : 1000 ≤ d) (htop : d < 1000000 * twoTo 42) :
    (thousandfold d 1000000).Reaches (d / 1000 * unitsPerOne) ↔ d / 1000 * twoTo (places d) ≤ thousandRounded d := by
  obtain ⟨m, hfit, hm, hm', hbelow, -⟩ := thousand_bounds (by omega) htop
  obtain ⟨hlow, hhigh, hplaces⟩ := whole_bounds hd htop
  have h11 := le_places (by omega) htop (by decide)
  have h61 : twoTo 61 = 2305843009213693952 := rfl
  have h62 : twoTo 62 = 4611686018427387904 := rfl
  have hle : 1000 * (d / 1000 * twoTo (places d)) ≤ d * twoTo (places d) := by
    rw [← Nat.mul_assoc]
    exact Nat.mul_le_mul_right _ (Nat.mul_div_le d 1000)
  have hunits : d / 1000 * unitsPerOne = d / 1000 * twoTo (places d) * twoTo (1074 - places d) := by
    rw [Nat.mul_assoc, ← twoTo_eq_mul (show places d + (1074 - places d) = 1074 by omega), unitsPerOne]
  unfold thousandRounded
  rw [hm']
  by_cases hpower : d / 1000 * twoTo (places d) = twoTo 61 ∨ d / 1000 * twoTo (places d) = twoTo 62
  · -- at a power of two the units change, but the product is not below it
    have hbelow' : d / 1000 * twoTo (places d) ≤ 1000 * m := by omega
    refine iff_of_true ?_ (hbelow'.trans (Nat.le_add_right _ _))
    have hfirst (g : Nat) (hg : d / 1000 * twoTo (places d) = twoTo 52 * twoTo g) :
        (thousandfold d 1000000).Reaches (d / 1000 * unitsPerOne) := by
      rw [hunits, hg, Nat.mul_assoc, ← twoTo_add, Nat.add_comm g]
      exact reaches_thousandfold_of_le (by decide) hfit (by decide) (hg ▸ hm ▸ hbelow')
    rcases hpower with h | h
    · exact hfirst 9 h
    · exact hfirst 10 h
  · rw [reaches_whole_iff hfit hm (by omega) h11 (by omega) hhigh.le]
    simp only [Nat.lt_iff_le_and_ne, show d / 1000 * twoTo (places d) ≠ twoTo 62 by omega, ne_eq, not_false_eq_true,
      and_true]

/-- The next whole thousandth is reached from half a unit below it on. -/
theorem reaches_next_thousandth_iff (hd : 1000 ≤ d) (htop : d < 1000000 * twoTo 42) :
    (thousandfold d 1000000).Reaches ((d / 1000 + 1) * unitsPerOne) ↔
      (d / 1000 + 1) * twoTo (places d) ≤ thousandRounded d := by
  obtain ⟨m, hfit, hm, hm', -, -⟩ := thousand_bounds (by omega) htop
  obtain ⟨hlow, hhigh, hplaces⟩ := whole_bounds hd htop
  have h11 := le_places (by omega) htop (by decide)
  have hpos := twoTo_pos (places d)
  -- powers of two are multiples of the unit
  have hnext {l : Nat} (hl : places d ≤ l) :
      d / 1000 * twoTo (places d) < twoTo l ↔ (d / 1000 + 1) * twoTo (places d) ≤ twoTo l := by
    rw [twoTo_eq_mul (Nat.sub_add_cancel hl), Nat.mul_lt_mul_right hpos, Nat.mul_le_mul_right_iff hpos]
    exact Nat.lt_iff_add_one_le
  have hbeyond : d / 1000 * twoTo (places d) < (d / 1000 + 1) * twoTo (places d) :=
    Nat.mul_lt_mul_of_pos_right (Nat.lt_succ_self _) hpos
  unfold thousandRounded
  rw [hm', reaches_whole_iff hfit hm (by omega) h11 (by omega) ((hnext (by omega)).mp hhigh)]
  simp only [hnext hplaces]

/-- **Of which numbers of millionths the whole thousandths come out**, a thousand times and rounded. -/
theorem truncate?_millionths_iff (htop : d < 1000000 * twoTo 42) :
    (thousandfold d 1000000).truncate? = some ((d / 1000 : Nat) : Int) ↔ Told d := by
  rcases Nat.eq_zero_or_pos d with rfl | hd
  · exact iff_of_true (truncate?_thousandfold_zero (by decide)) (by decide)
  have hrounded : IsRounded (thousandfold d 1000000) := isRounded_thousandfold (by decide)
  rw [hrounded.truncate?_eq_some_iff]
  rcases Nat.lt_or_ge d 1000 with hsmall | hge
  · have htold : Told d := told_of_not_dvd hd (hsmall.trans (by decide)) fun h => by
      have := Nat.le_of_dvd hd h
      omega
    obtain ⟨m, hfit, -⟩ := thousand_bounds hd htop
    have hzero : (thousandfold d 1000000).Reaches (0 * twoTo (1074 - places d + 0)) :=
      reaches_thousandfold_of_le (by decide) hfit (Nat.zero_le _) (by rw [Nat.zero_mul]; exact Nat.zero_le _)
    rw [Nat.zero_mul] at hzero
    rw [Nat.div_eq_of_lt hsmall, Nat.zero_mul, Nat.zero_add]
    exact iff_of_true ⟨hzero, not_reaches_one hd hsmall⟩ htold
  · rw [reaches_whole_thousandths_iff hge htop, reaches_next_thousandth_iff hge htop, Nat.not_le, Told]

/-- **What a number of millionths comes out as** below `2 ^ 33` seconds: as its whole thousandths, or as one less where
    it is these and they fall short. -/
theorem truncate?_millionths (htop : d < 1000000 * twoTo 33) : (thousandfold d 1000000).truncate? =
    some ((d / 1000 - if 1000 ∣ d ∧ FallsShort (d / 1000) then 1 else 0 : Nat) : Int) := by
  by_cases hdvd : 1000 ∣ d
  · obtain ⟨k, rfl⟩ := hdvd
    have hk : k < twoTo 52 := by
      have h33 : twoTo 33 = 8589934592 := rfl
      have h52 : twoTo 52 = 4503599627370496 := rfl
      omega
    rw [Nat.mul_div_cancel_left k (by decide), show 1000000 = 1000 * 1000 from rfl, thousandfold_scale (by decide),
      truncate?_thousandths hk]
    simp only [Nat.dvd_mul_right, true_and]
  · have hd : 0 < d := Nat.pos_of_ne_zero fun h => hdvd (h ▸ dvd_zero 1000)
    have htop' : d < 1000000 * twoTo 42 := htop.trans (by decide)
    rw [if_neg fun h => hdvd h.1, Nat.sub_zero, truncate?_millionths_iff htop']
    exact told_of_not_dvd hd htop hdvd

end StepRunner.Binary64
