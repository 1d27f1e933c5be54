import StepRunner.Proofs.Number.Leading

/-!
# A quotient a thousand times

A time that is given in seconds is a quotient that is rounded to the format; it is told in milliseconds by the
integer part of a thousand times it, rounded again (`thousandfold`). Both roundings may lose, so that a whole
number of milliseconds may come out one short.

* `reaches_thousandfold`: what the product reaches, by the significand of the quotient alone;
* `truncate?_thousandths_iff`: which whole thousandths come out as themselves;
* `truncate?_thousandths`: what the others of less than 53 bits come out as.
-/

namespace StepRunner.Binary64

open Number

variable {num den m p e g k c : Nat} {x : Binary64}

/-! ## 1. A thousand times -/

/-- A quotient is rounded, taken a thousand times, and rounded again. -/
def thousandfold (num den : Nat) : Binary64 := (ofRatio false num den).mul (ofInt 1000)

theorem ofInt_thousand : ofInt 1000 = .finite false (1000 * twoTo 43) 1031 := by decide +kernel

/-- A finite number a thousand times, rounded. -/
theorem finite_mul_thousand (sign : Bool) (m p : Nat) : (finite sign m p).mul (ofInt 1000) =
    ofUnits sign (1000 * (m * twoTo p)) 1 := by
  have hunits : Binary64.units (1000 * twoTo 43) 1031 = 1000 * unitsPerOne := by decide +kernel
  have hscale : ofUnits sign (unitsPerOne * (1000 * (m * twoTo p))) (unitsPerOne * 1) =
      ofUnits sign (1000 * (m * twoTo p)) 1 := ofUnits_scale unitsPerOne_pos _ _
  rw [Nat.mul_one, Nat.mul_left_comm, Nat.mul_comm unitsPerOne] at hscale
  rw [ofInt_thousand, Binary64.mul, Bool.bne_false, hunits, Binary64.units, Nat.mul_left_comm, hscale]

theorem mul_thousand_ne_nan (h : x ≠ .nan) : x.mul (ofInt 1000) ≠ .nan := by
  cases x with
  | nan => exact absurd rfl h
  | finite sign m p => exact finite_mul_thousand sign m p ▸ ofUnits_ne_nan Nat.one_pos
  | infinite sign =>
      rw [ofInt_thousand]
      exact nofun

/-- The quotient lies where the numbers of the format have the exponent. -/
structure Fits (num den p : Nat) : Prop where
  low : twoTo 52 * (den * twoTo p) ≤ num * unitsPerOne
  high : num * unitsPerOne < twoTo 53 * (den * twoTo p)
  within : p ≤ 2044

/-- The significand of a quotient with the exponent. -/
def significand (num den p : Nat) : Nat := roundHalfEven (num * unitsPerOne) (den * twoTo p)

/-- A quotient is a thousand times its significand, rounded. -/
theorem thousandfold_eq (hd : 0 < den) (h : Fits num den p) :
    thousandfold num den = ofUnits false (1000 * (significand num den p * twoTo p)) 1 := by
  have hpack {s q : Nat} (hq : q ≤ 2045) : pack false s q = .finite false s q := if_neg (by omega)
  have hlow := h.low
  have hhigh := h.high
  have hle := h.within
  rw [Nat.mul_comm den] at hlow hhigh
  unfold thousandfold ofRatio
  rw [ofUnits_eq hd (fun _ => hlow) hhigh, ← significand]
  split
  · next hs =>
      have hmul : twoTo 52 * twoTo (p + 1) = significand num den p * twoTo p := by
        rw [hs, twoTo_add p 1, twoTo_add 52 1]
        ring
      rw [hpack (by omega), finite_mul_thousand, hmul]
  · rw [hpack (by omega), finite_mul_thousand]

/-- **What a thousand times a quotient reaches**: a significand whose units are `2 ^ g` of the quotient's. -/
theorem reaches_thousandfold (hd : 0 < den) (h : Fits num den p) (hk : twoTo 52 < k) (hk' : k ≤ twoTo 53)
    (hp : p + g ≤ 2045) : (thousandfold num den).Reaches (k * twoTo (p + g)) ↔
      2 * (k * twoTo g) + k % 2 ≤ 2000 * significand num den p + twoTo g := by
  rw [thousandfold_eq hd h, reaches_ofUnits Nat.one_pos hk hk' hp, Nat.one_mul, Nat.add_comm p, twoTo_add]
  have hE := twoTo_pos p
  have hleft : 2 * (k * (twoTo g * twoTo p)) = 2 * (k * twoTo g) * twoTo p := by
    rw [← Nat.mul_assoc k, ← Nat.mul_assoc 2]
  have hright : 2 * (1000 * (significand num den p * twoTo p)) + twoTo g * twoTo p =
      (2000 * significand num den p + twoTo g) * twoTo p := by
    rw [Nat.add_mul, ← Nat.mul_assoc 1000, ← Nat.mul_assoc 2, ← Nat.mul_assoc 2]
  rw [hleft, hright]
  generalize 2 * (k * twoTo g) = X
  generalize 2000 * significand num den p + twoTo g = Y
  exact mul_add_le_mul_iff hE (Nat.le_of_lt_succ (Nat.mod_lt k (by decide)))

/-- A significand that is not above a thousand times that of the quotient is reached. -/
theorem reaches_thousandfold_of_le (hd : 0 < den) (h : Fits num den p) (hk' : k ≤ twoTo 53)
    (hle : k * twoTo g ≤ 1000 * significand num den p) :
    (thousandfold num den).Reaches (k * twoTo (p + g)) := by
  rw [thousandfold_eq hd h]
  refine reaches_of_le Nat.one_pos hk' ?_
  rw [Nat.one_mul, Nat.add_comm p, twoTo_add, ← Nat.mul_assoc, ← Nat.mul_assoc 1000]
  exact Nat.mul_le_mul_right _ hle

theorem thousandfold_scale (hc : 0 < c) (num den : Nat) :
    thousandfold (c * num) (c * den) = thousandfold num den := by
  unfold thousandfold ofRatio
  rw [Nat.mul_assoc, ofUnits_scale hc]

/-- A thousand times a quotient is a number that was rounded. -/
theorem isRounded_thousandfold (hd : 0 < den) : IsRounded (thousandfold num den) := by
  have hpack (s q : Nat) : IsRounded ((pack false s q).mul (ofInt 1000)) := by
    unfold pack
    split
    · rw [ofInt_thousand]
      exact .beyond
    · rw [finite_mul_thousand]
      exact .quotient _ Nat.one_pos
  unfold thousandfold ofRatio
  obtain ⟨q, -, -, ⟨-, hx⟩ | ⟨-, hx⟩⟩ := ofUnits_spec false (num * unitsPerOne) hd
  · exact hx ▸ hpack _ _
  · exact hx ▸ hpack _ _

/-- A quotient of which the units are known lies where they have 53 bits. -/
theorem fits_of_eq (hunits : num * unitsPerOne = c * twoTo p) (hlow : den * twoTo 52 ≤ c) (hhigh : c < den * twoTo 53)
    (hp : p ≤ 2044) : Fits num den p ∧ significand num den p = roundHalfEven c den := by
  refine ⟨⟨?_, ?_, hp⟩, ?_⟩
  · rw [hunits, ← Nat.mul_assoc, Nat.mul_comm _ den]
    exact Nat.mul_le_mul_right _ hlow
  · rw [hunits, ← Nat.mul_assoc, Nat.mul_comm _ den]
    exact Nat.mul_lt_mul_of_pos_right hhigh (twoTo_pos p)
  · rw [significand, hunits, Nat.mul_comm, Nat.mul_comm den, roundHalfEven_scale (twoTo_pos p)]

theorem truncate?_thousandfold_zero (hd : 0 < den) : (thousandfold 0 den).truncate? = some 0 := by
  rw [thousandfold, ofRatio, Nat.zero_mul, ofUnits_zero hd, finite_mul_thousand, Nat.zero_mul, Nat.mul_zero,
    ofUnits_zero Nat.one_pos, truncate?, units, Nat.zero_mul, Nat.zero_div]
  rfl

/-! ## 2. Whole thousandths -/

/-- So many thousandths, rounded and taken a thousand times, are rounded to less than the number: of the quotient
    has been lost more than half a unit of the number. -/
def FallsShort (k : Nat) : Prop :=
  1000 * twoTo 43 ≤ leading k ∧ 32 < 64 * leading k % 125 + leading k % 2 ∧ 64 * leading k % 125 < 63

/-- They are rounded to the next number or more: the quotient has gained half a unit of the number, which is a
    whole one. -/
def Overshoots (k : Nat) : Prop :=
  twoTo 52 ≤ k ∧ 1000 * twoTo 43 ≤ leading k ∧ 62 < 64 * leading k % 125 ∧
    64 * leading k % 125 < 93 + leading k % 2

instance (k : Nat) : Decidable (FallsShort k) := inferInstanceAs (Decidable (_ ∧ _))

instance (k : Nat) : Decidable (Overshoots k) := inferInstanceAs (Decidable (_ ∧ _))

/-- Whole eighths of a second do neither, if they are numbers of the format. -/
theorem not_fallsShort_or_overshoots (hdvd : twoTo (k.log2 - 52) ∣ k) (hk : 125 ∣ k) :
    ¬ FallsShort k ∧ ¬ Overshoots k := by
  have hrest : 64 * leading k % 125 = 0 :=
    Nat.mod_eq_zero_of_dvd (Dvd.dvd.mul_left (dvd_leading hdvd hk (by decide)) 64)
  unfold FallsShort Overshoots
  rw [hrest]
  omega

section

variable {bits j : Nat}

/-- The 125th part of a number, rounded, is known from the remainder. -/
theorem rounded_cases {q r : Nat} (hr : r < 125) (hlow : 125 * q + r ≤ 125 * m + 62) (hhigh : 125 * m ≤ 125 * q + r + 62) :
    r < 63 ∧ m = q ∨ 62 < r ∧ m = q + 1 := by
  omega

/-- With which exponent a number of thousandths is rounded, and what its significand comes to. -/
theorem exists_fits_thousandths (hlow : twoTo 52 ≤ bits) (hhigh : bits < twoTo 53)
    (hunits : k * unitsPerOne = bits * twoTo e) (he : 10 ≤ e) (he' : e ≤ 2045) : ∃ p g u, p + g = e ∧ twoTo g = u ∧
      Fits k 1000 p ∧ 2 * (bits * u) ≤ 2000 * significand k 1000 p + 1000 ∧
      2000 * significand k 1000 p ≤ 2 * (bits * u) + 1000 ∧
      (u = 1024 ∧ bits < 1000 * twoTo 43 ∨ u = 512 ∧ 1000 * twoTo 43 ≤ bits ∧
        (64 * bits % 125 < 63 ∧ 125 * significand k 1000 p + 64 * bits % 125 = 64 * bits ∨
          62 < 64 * bits % 125 ∧ 125 * significand k 1000 p + 64 * bits % 125 = 64 * bits + 125)) := by
  have h43 : twoTo 43 = 8796093022208 := rfl
  have h52 : twoTo 52 = 4503599627370496 := rfl
  have h53 : twoTo 53 = 9007199254740992 := rfl
  have hfits {g u : Nat} (hu : twoTo g = u) (hg : g ≤ e) (h1 : 0 < g) (hl : 1000 * twoTo 52 ≤ bits * u)
      (hh : bits * u < 1000 * twoTo 53) : Fits k 1000 (e - g) ∧
        2 * (bits * u) ≤ 2000 * significand k 1000 (e - g) + 1000 ∧
        2000 * significand k 1000 (e - g) ≤ 2 * (bits * u) + 1000 := by
    have hpow : k * unitsPerOne = bits * u * twoTo (e - g) := by
      rw [hunits, ← hu, Nat.mul_assoc, ← twoTo_add, Nat.add_sub_cancel' hg]
    obtain ⟨hfit, hs⟩ := fits_of_eq hpow hl hh (by omega)
    obtain ⟨hbelow, habove⟩ := roundHalfEven_bounds (bits * u) (show 0 < 1000 by decide)
    rw [hs]
    exact ⟨hfit, by omega, by omega⟩
  rcases Nat.lt_or_ge bits (1000 * twoTo 43) with hlt | hge
  · obtain ⟨hfit, hs, hs'⟩ := hfits (g := 10) (u := 1024) rfl he (by decide) (by omega) (by omega)
    exact ⟨e - 10, 10, 1024, Nat.sub_add_cancel he, rfl, hfit, hs, hs', .inl ⟨rfl, hlt⟩⟩
  · have he9 : 9 ≤ e := by omega
    obtain ⟨hfit, hs, hs'⟩ := hfits (g := 9) (u := 512) rfl he9 (by decide) (by omega) (by omega)
    have hdiv := Nat.div_add_mod (64 * bits) 125
    have hcases := rounded_cases (m := significand k 1000 (e - 9)) (q := 64 * bits / 125)
      (Nat.mod_lt (64 * bits) (by decide)) (by omega) (by omega)
    exact ⟨e - 9, 9, 512, Nat.sub_add_cancel he9, rfl, hfit, hs, hs', .inr ⟨rfl, hge, by omega⟩⟩

/-- **Where whole thousandths are reached again** by a thousand times their quotient. -/
theorem reaches_bits_iff (hlow : twoTo 52 ≤ bits) (hhigh : bits < twoTo 53)
    (hunits : k * unitsPerOne = bits * twoTo e) (he : 10 ≤ e) (he' : e ≤ 2045) :
    (thousandfold k 1000).Reaches (bits * twoTo e) ↔
      ¬ (1000 * twoTo 43 ≤ bits ∧ 32 < 64 * bits % 125 + bits % 2 ∧ 64 * bits % 125 < 63) := by
  obtain ⟨p, g, u, rfl, hu, hfit, hs, hs', hcases⟩ := exists_fits_thousandths hlow hhigh hunits he he'
  rcases Nat.lt_or_eq_of_le hlow with hlt | heq
  · rw [reaches_thousandfold (by decide) hfit hlt hhigh.le he', hu]
    rcases hcases with ⟨rfl, hsmall⟩ | ⟨rfl, hgreat, hrest⟩
    · omega
    · omega
  · -- the first significand is reached where the product is not below it
    have h43 : twoTo 43 = 8796093022208 := rfl
    have h52 : twoTo 52 = 4503599627370496 := rfl
    refine iff_of_true (reaches_thousandfold_of_le (by decide) hfit hhigh.le ?_) (by omega)
    rw [hu]
    rcases hcases with ⟨rfl, -⟩ | ⟨rfl, hgreat, -⟩
    · omega
    · omega

/-- **Where the next significand is reached** as well. -/
theorem reaches_bits_succ_iff (hlow : twoTo 52 ≤ bits) (hhigh : bits < twoTo 53)
    (hunits : k * unitsPerOne = bits * twoTo e) (he : 10 ≤ e) (he' : e ≤ 2045) :
    (thousandfold k 1000).Reaches ((bits + 1) * twoTo e) ↔
      1000 * twoTo 43 ≤ bits ∧ 62 < 64 * bits % 125 ∧ 64 * bits % 125 < 93 + bits % 2 := by
  obtain ⟨p, g, u, rfl, hu, hfit, hs, hs', hcases⟩ := exists_fits_thousandths hlow hhigh hunits he he'
  have hparity : (bits + 1) % 2 + bits % 2 = 1 := by omega
  rw [reaches_thousandfold (by decide) hfit (Nat.lt_add_one_of_le hlow) hhigh he', hu]
  rcases hcases with ⟨rfl, hsmall⟩ | ⟨rfl, hgreat, hrest⟩
  · omega
  · omega

/-- A significand beyond the next one is never reached, and one before the number always. -/
theorem reaches_bits_beside (hlow : twoTo 52 ≤ bits) (hhigh : bits < twoTo 53)
    (hunits : k * unitsPerOne = bits * twoTo e) (he : 10 ≤ e) (he' : e ≤ 2045) (hj : 2 ≤ j) :
    (bits + j ≤ twoTo 53 → ¬ (thousandfold k 1000).Reaches ((bits + j) * twoTo e)) ∧
      (j ≤ bits → (thousandfold k 1000).Reaches ((bits - j) * twoTo e)) := by
  obtain ⟨p, g, u, rfl, hu, hfit, hs, hs', hcases⟩ := exists_fits_thousandths hlow hhigh hunits he he'
  refine ⟨fun hj' => ?_, fun hj' => reaches_thousandfold_of_le (by decide) hfit (by omega) ?_⟩
  · rw [reaches_thousandfold (by decide) hfit (by omega) hj' he', hu]
    rcases hcases with ⟨rfl, -⟩ | ⟨rfl, -⟩
    · omega
    · omega
  · rw [hu]
    rcases hcases with ⟨rfl, -⟩ | ⟨rfl, -⟩
    · omega
    · omega

end

/-- The number behind a whole number of thousandths is not reached where the number has less than 53 bits. -/
theorem not_reaches_succ (hk : k ≠ 0) (hl : k.log2 < 52) :
    ¬ (thousandfold k 1000).Reaches ((k + 1) * unitsPerOne) := by
  obtain ⟨hlow, hhigh⟩ := leading_bounds hk
  obtain ⟨hone, hunits⟩ := units_of_log2_le hl.le
  have hj : 2 ≤ twoTo (52 - k.log2) := twoTo_le (show 1 ≤ 52 - k.log2 by omega)
  have htop : leading k + twoTo (52 - k.log2) ≤ twoTo 53 := by
    rw [leading, if_pos hl.le, ← Nat.succ_mul, twoTo_eq_mul (show k.log2 + 1 + (52 - k.log2) = 53 by omega)]
    exact Nat.mul_le_mul_right _ (log2_bounds hk).2
  have hnot := (reaches_bits_beside hlow hhigh hunits (by omega) (by omega) hj).1 htop
  rwa [Nat.add_mul, ← hone, ← hunits, ← Nat.succ_mul] at hnot

/-- **Where the number behind whole thousandths is reached**, for numbers of the format. -/
theorem reaches_succ_thousandths_iff (hk : k ≠ 0) (htop : k < twoTo 1024) (hdvd : twoTo (k.log2 - 52) ∣ k) :
    (thousandfold k 1000).Reaches ((k + 1) * unitsPerOne) ↔ Overshoots k := by
  obtain ⟨hlow, hhigh⟩ := leading_bounds hk
  have hlog := log2_lt_of_lt hk htop
  have hunits := units_of_dvd hdvd
  rcases Nat.lt_or_ge k.log2 52 with hlt | hge
  · refine iff_of_false (not_reaches_succ hk hlt) fun hover => ?_
    exact absurd ((le_log2_iff hk 52).mpr hover.1) (Nat.not_le.mpr hlt)
  · have hrounded : IsRounded (thousandfold k 1000) := isRounded_thousandfold (by decide)
    rw [hrounded.reaches_succ_units_iff hk hge, reaches_bits_succ_iff hlow hhigh hunits (by omega) (by omega),
      Overshoots, and_iff_right ((le_log2_iff hk 52).mp hge)]

/-- **Where whole thousandths are reached**, for numbers of the format. -/
theorem reaches_thousandths_iff (hk : k ≠ 0) (htop : k < twoTo 1024) (hdvd : twoTo (k.log2 - 52) ∣ k) :
    (thousandfold k 1000).Reaches (k * unitsPerOne) ↔ ¬ FallsShort k := by
  obtain ⟨hlow, hhigh⟩ := leading_bounds hk
  have hlog := log2_lt_of_lt hk htop
  have hunits := units_of_dvd hdvd
  rw [hunits, reaches_bits_iff hlow hhigh hunits (by omega) (by omega), FallsShort]

/-- **Which whole thousandths come out as themselves**, a thousand times and rounded: those of the format that neither
    fall short nor overshoot. -/
theorem truncate?_thousandths_iff (htop : k < twoTo 1024) : (thousandfold k 1000).truncate? = some (k : Int) ↔
    twoTo (k.log2 - 52) ∣ k ∧ ¬ FallsShort k ∧ ¬ Overshoots k := by
  by_cases hk : k = 0
  · subst hk
    exact iff_of_true (truncate?_thousandfold_zero (by decide)) ⟨dvd_zero _, by decide, by decide⟩
  have hrounded : IsRounded (thousandfold k 1000) := isRounded_thousandfold (by decide)
  by_cases hdvd : twoTo (k.log2 - 52) ∣ k
  · rw [hrounded.truncate?_eq_some_iff, reaches_thousandths_iff hk htop hdvd,
      reaches_succ_thousandths_iff hk htop hdvd, and_iff_right hdvd]
  · exact iff_of_false (hrounded.truncate?_ne_of_not_dvd hdvd) fun h => hdvd h.1

/-- The number before whole thousandths is always reached, where it has less than 53 bits. -/
theorem reaches_pred_thousandths (hk : k ≠ 0) (hl : k.log2 < 52) :
    (thousandfold k 1000).Reaches ((k - 1) * unitsPerOne) := by
  obtain ⟨hlow, hhigh⟩ := leading_bounds hk
  obtain ⟨hone, hunits⟩ := units_of_log2_le hl.le
  have hj : 2 ≤ twoTo (52 - k.log2) := twoTo_le (show 1 ≤ 52 - k.log2 by omega)
  have hj' : twoTo (52 - k.log2) ≤ leading k := by
    rw [leading, if_pos hl.le]
    exact Nat.le_mul_of_pos_left _ (Nat.pos_of_ne_zero hk)
  have hbefore := (reaches_bits_beside hlow hhigh hunits (by omega) (by omega) hj).2 hj'
  rwa [Nat.sub_mul, ← hone, ← hunits, ← Nat.sub_one_mul] at hbefore

/-- **What whole thousandths come out as**: as themselves, or as one less. -/
theorem truncate?_thousandths (htop : k < twoTo 52) :
    (thousandfold k 1000).truncate? = some ((k - if FallsShort k then 1 else 0 : Nat) : Int) := by
  have htop' : k < twoTo 1024 := htop.trans_le (twoTo_le (by decide))
  by_cases hshort : FallsShort k
  · have hk : k ≠ 0 := by
      rintro rfl
      exact absurd hshort (by decide)
    have hrounded : IsRounded (thousandfold k 1000) := isRounded_thousandfold (by decide)
    rw [if_pos hshort, hrounded.truncate?_eq_some_iff, Nat.sub_add_cancel (Nat.pos_of_ne_zero hk),
      reaches_thousandths_iff hk htop' (dvd_of_lt htop), not_not]
    exact ⟨reaches_pred_thousandths hk (log2_lt_of_lt hk htop), hshort⟩
  · rw [if_neg hshort, Nat.sub_zero]
    have hover : ¬ Overshoots k := fun h => absurd h.1 (Nat.not_le.mpr htop)
    exact (truncate?_thousandths_iff htop').mpr ⟨dvd_of_lt htop, hshort, hover⟩

end StepRunner.Binary64
