import StepRunner.Number.Binary64
import StepRunner.Proofs.Number.Decimal

/-!
# From where on a number rounds to another

A quotient rounds to a significand or more from half a unit below it on, to an odd one only beyond that:
`reaches_ofUnits`, where `Reaches` compares a number of the format with a whole number of smallest units.
The first significand that the format does not have is covered, so this also says what is beyond the
format: `isInfinite_ofUnits`, and of an integer `isInfinite_ofInt`. A decimal with a fraction is read as a
quotient that is rounded, too: `ofDecimal_eq_ofUnits`.
-/

namespace StepRunner.Binary64

open Number

variable {negative : Bool} {num den bound m p k e : Nat} {x : Binary64}

/-! ## 1. Powers of two -/

theorem twoTo_add (m n : Nat) : twoTo (m + n) = twoTo m * twoTo n := Nat.pow_add 2 m n

theorem twoTo_le {m n : Nat} (h : m ≤ n) : twoTo m ≤ twoTo n := Nat.pow_le_pow_right (by decide) h

theorem twoTo_pos (n : Nat) : 0 < twoTo n := Nat.two_pow_pos n

theorem le_log2_iff {n : Nat} (h : n ≠ 0) (k : Nat) : k ≤ n.log2 ↔ twoTo k ≤ n := Nat.le_log2 h

/-! ## 2. Rounding to a whole number -/

theorem roundHalfEven_cases (num den : Nat) :
    roundHalfEven num den = num / den ∨ roundHalfEven num den = num / den + 1 := by
  unfold roundHalfEven
  dsimp only
  split
  · exact .inl rfl
  · split
    · exact .inr rfl
    · rcases Nat.mod_two_eq_zero_or_one (num / den) with h | h
      · exact .inl (by rw [h, Nat.add_zero])
      · exact .inr (by rw [h])

/-- **Rounding reaches a number** exactly from half a unit below it on, an odd one only beyond that. -/
theorem le_roundHalfEven_iff (hd : 0 < den) :
    bound ≤ roundHalfEven num den ↔ 2 * (bound * den) + bound % 2 ≤ 2 * num + den := by
  have hnum := Nat.div_add_mod num den
  have hr := Nat.mod_lt num hd
  unfold roundHalfEven
  generalize num / den = q at hnum ⊢
  generalize num % den = r at hnum hr ⊢
  rw [Nat.mul_comm] at hnum
  dsimp only
  rcases Nat.lt_trichotomy bound (q + 1) with hlt | heq | hgt
  · have hmul := Nat.mul_le_mul_right den (Nat.le_of_lt_succ hlt)
    split
    · omega
    · split <;> omega
  · rw [heq, Nat.add_mul]
    split
    · omega
    · split <;> omega
  · have hmul := Nat.mul_le_mul_right den (Nat.succ_le_of_lt hgt)
    rw [Nat.succ_eq_add_one, Nat.add_mul, Nat.add_mul] at hmul
    split
    · omega
    · split <;> omega

/-! ## 3. Rounding to a number of the format -/

/-- The number has the size of so many smallest units, or more. -/
def Reaches : Binary64 → Nat → Prop
  | .finite _ m p, bound => bound ≤ units m p
  | .infinite _, _ => True
  | .nan, _ => False

theorem isInfinite_pack : (pack negative m p).isInfinite = true ↔ 2045 < p := by
  unfold pack
  split
  · next h => exact ⟨fun _ => h, fun _ => rfl⟩
  · next h => exact ⟨nofun, fun h' => absurd h' h⟩

theorem reaches_pack : (pack negative m p).Reaches bound ↔ 2045 < p ∨ bound ≤ m * twoTo p := by
  unfold pack
  split
  · next h => exact ⟨fun _ => .inl h, fun _ => trivial⟩
  · next h => exact ⟨.inr, fun h' => h'.resolve_left h⟩

/-- **How a quotient is rounded**: it is cut to a significand of 53 bits, except where it is smaller than
    one, and the significand is rounded. -/
theorem ofUnits_spec (negative : Bool) (num : Nat) (hd : 0 < den) : ∃ p,
    num < twoTo 53 * (den * twoTo p) ∧ (0 < p → twoTo 52 * (den * twoTo p) ≤ num) ∧
    (roundHalfEven num (den * twoTo p) = twoTo 53 ∧
        ofUnits negative num den = pack negative (twoTo 52) (p + 1) ∨
      roundHalfEven num (den * twoTo p) < twoTo 53 ∧
        ofUnits negative num den = pack negative (roundHalfEven num (den * twoTo p)) p) := by
  have hspec : ∃ p, (if num / den < twoTo 53 then 0 else (num / den).log2 - 52) = p ∧
      num / den < twoTo (53 + p) ∧ (0 < p → twoTo (52 + p) ≤ num / den) := by
    refine ⟨_, rfl, ?_⟩
    split
    · next h => exact ⟨h, fun h => absurd h (Nat.lt_irrefl 0)⟩
    · next h =>
        have h53 := twoTo_pos 53
        have h0 : num / den ≠ 0 := by omega
        have hlog := (le_log2_iff h0 53).mpr (Nat.not_lt.mp h)
        refine ⟨?_, fun _ => ?_⟩
        · rw [← Nat.not_le, ← le_log2_iff h0]
          omega
        · rw [← le_log2_iff h0]
          omega
  obtain ⟨p, hp, hhigh, hlow⟩ := hspec
  rw [Nat.div_lt_iff_lt_mul hd, twoTo_add, Nat.mul_assoc, Nat.mul_comm (twoTo p)] at hhigh
  refine ⟨p, hhigh, fun h => ?_, ?_⟩
  · have := hlow h
    rwa [Nat.le_div_iff_mul_le hd, twoTo_add, Nat.mul_assoc, Nat.mul_comm (twoTo p)] at this
  · have hle : roundHalfEven num (den * twoTo p) ≤ twoTo 53 := by
      have hq := (Nat.div_lt_iff_lt_mul (Nat.mul_pos hd (twoTo_pos p))).mpr hhigh
      rcases roundHalfEven_cases num (den * twoTo p) with h | h <;> omega
    unfold ofUnits
    simp only [hp]
    by_cases h : roundHalfEven num (den * twoTo p) = twoTo 53
    · exact .inl ⟨h, if_pos h⟩
    · exact .inr ⟨by omega, if_neg h⟩

/-- The size of a quotient that is rounded. -/
theorem reaches_of_spec (h : roundHalfEven num (den * twoTo p) = twoTo 53 ∧ x = pack negative (twoTo 52) (p + 1) ∨
      roundHalfEven num (den * twoTo p) < twoTo 53 ∧
        x = pack negative (roundHalfEven num (den * twoTo p)) p) :
    x.Reaches bound ↔ 2045 < p ∨ roundHalfEven num (den * twoTo p) = twoTo 53 ∧ p = 2045 ∨
      bound ≤ roundHalfEven num (den * twoTo p) * twoTo p := by
  rcases h with ⟨hs, rfl⟩ | ⟨hs, rfl⟩
  · have hmul : twoTo 52 * twoTo (p + 1) = twoTo 53 * twoTo p := by
      rw [← twoTo_add, ← twoTo_add]
      congr 1
      omega
    rw [reaches_pack, hs, hmul]
    omega
  · rw [reaches_pack]
    omega

theorem Reaches.mono {bound' : Nat} (h : x.Reaches bound) (hle : bound' ≤ bound) : x.Reaches bound' := by
  cases x with
  | finite sign m p => exact Nat.le_trans hle h
  | infinite sign => exact trivial
  | nan => exact h

/-- Rounding does not go below a significand that is not above the quotient. -/
theorem reaches_of_le (hd : 0 < den) (hk : k ≤ twoTo 53) (h : k * (den * twoTo e) ≤ num) :
    (ofUnits negative num den).Reaches (k * twoTo e) := by
  obtain ⟨p, -, hlow, hx⟩ := ofUnits_spec negative num hd
  rw [reaches_of_spec hx]
  have hpos := Nat.mul_pos hd (twoTo_pos p)
  have hround : num / (den * twoTo p) ≤ roundHalfEven num (den * twoTo p) := by
    rcases roundHalfEven_cases num (den * twoTo p) with h | h <;> omega
  refine .inr (.inr ?_)
  rcases Nat.lt_or_ge e p with hlt | hge
  · -- the quotient is above all numbers of the exponent
    have hs := ((Nat.le_div_iff_mul_le hpos).mpr (hlow (by omega))).trans hround
    calc k * twoTo e
        ≤ twoTo 53 * twoTo e := Nat.mul_le_mul_right _ hk
      _ = twoTo 52 * twoTo (e + 1) := by rw [← twoTo_add, ← twoTo_add]; congr 1; omega
      _ ≤ twoTo 52 * twoTo p := Nat.mul_le_mul_left _ (twoTo_le hlt)
      _ ≤ _ := Nat.mul_le_mul_right _ hs
  · have hexp : twoTo e = twoTo (e - p) * twoTo p := by rw [← twoTo_add, Nat.sub_add_cancel hge]
    have hs : k * twoTo (e - p) ≤ roundHalfEven num (den * twoTo p) := by
      refine ((Nat.le_div_iff_mul_le hpos).mpr ?_).trans hround
      calc k * twoTo (e - p) * (den * twoTo p)
          = k * (den * twoTo e) := by rw [hexp]; ring
        _ ≤ num := h
    calc k * twoTo e
        = k * twoTo (e - p) * twoTo p := by rw [hexp, Nat.mul_assoc]
      _ ≤ _ := Nat.mul_le_mul_right _ hs

/-- **A quotient reaches a significand** exactly from half a unit below it on, an odd one only beyond
    that. The significand is none of those at which the units change, but for the one after the last. -/
theorem reaches_ofUnits (hd : 0 < den) (hk : twoTo 52 < k) (hk' : k ≤ twoTo 53)
    (he : e ≤ 2045) : (ofUnits negative num den).Reaches (k * twoTo e) ↔
      2 * (k * (den * twoTo e)) + k % 2 ≤ 2 * num + den * twoTo e := by
  obtain ⟨p, hhigh, hlow, hx⟩ := ofUnits_spec negative num hd
  rw [reaches_of_spec hx]
  have hround := @le_roundHalfEven_iff num (den * twoTo p) k (Nat.mul_pos hd (twoTo_pos p))
  have h52 : twoTo 52 = 4503599627370496 := rfl
  have h53 : twoTo 53 = 9007199254740992 := rfl
  rcases Nat.lt_trichotomy p e with hlt | rfl | hgt
  · -- the quotient is below all numbers of the bound's exponent
    have hsize : den * twoTo (p + 1) ≤ den * twoTo e := Nat.mul_le_mul_left den (twoTo_le hlt)
    have hunit : roundHalfEven num (den * twoTo p) * twoTo p < k * twoTo e := by
      have hs : roundHalfEven num (den * twoTo p) ≤ twoTo 53 := by rcases hx with h | h <;> omega
      calc roundHalfEven num (den * twoTo p) * twoTo p
          ≤ twoTo 53 * twoTo p := Nat.mul_le_mul_right _ hs
        _ = twoTo 52 * twoTo (p + 1) := by rw [← twoTo_add, ← twoTo_add]; congr 1; omega
        _ ≤ twoTo 52 * twoTo e := Nat.mul_le_mul_left _ (twoTo_le hlt)
        _ < k * twoTo e := Nat.mul_lt_mul_of_pos_right hk (twoTo_pos e)
    have hhalf : den * twoTo (p + 1) = 2 * (den * twoTo p) := by
      rw [Nat.add_comm, twoTo_add, Nat.mul_left_comm]
      rfl
    have hmul := Nat.mul_le_mul_right (den * twoTo e) (Nat.succ_le_of_lt hk)
    rw [Nat.succ_mul] at hmul
    rw [h53] at hhigh
    rw [h52] at hmul
    omega
  · rw [← hround]
    rw [Nat.mul_le_mul_right_iff (twoTo_pos p)]
    omega
  · -- the quotient is above all numbers of the bound's exponent
    have hnum := hlow (by omega)
    have hle : twoTo 53 * (den * twoTo e) ≤ num :=
      calc twoTo 53 * (den * twoTo e)
          = twoTo 52 * (den * twoTo (e + 1)) := by rw [twoTo_add e 1, twoTo_add 52 1]; ring
        _ ≤ twoTo 52 * (den * twoTo p) := Nat.mul_le_mul_left _ (Nat.mul_le_mul_left den (twoTo_le hgt))
        _ ≤ num := hnum
    have hk'' := (Nat.mul_le_mul_right (den * twoTo e) hk').trans hle
    have hpos := Nat.mul_pos hd (twoTo_pos e)
    refine iff_of_true ((reaches_of_spec hx).mp (reaches_of_le hd hk' hk'')) ?_
    omega

/-! ## 4. What is beyond the format -/

/-- A significand that was rounded has 53 bits. -/
theorem significand_lt {sign : Bool} (hd : 0 < den) (h : ofUnits negative num den = .finite sign m p) :
    m < twoTo 53 ∧ p ≤ 2045 := by
  obtain ⟨q, -, -, ⟨-, hx⟩ | ⟨hs, hx⟩⟩ := ofUnits_spec negative num hd
  all_goals
    rw [h] at hx
    unfold pack at hx
    split at hx
    · cases hx
    · cases hx
      exact ⟨by first | exact hs | decide, by omega⟩

/-- **A quotient is beyond the format** exactly from this one on. -/
theorem isInfinite_ofUnits (negative : Bool) (num : Nat) (hd : 0 < den) :
    (ofUnits negative num den).isInfinite = true ↔
      twoTo 2098 * den ≤ num + twoTo 2044 * den := by
  have hreach := @reaches_ofUnits negative num den (twoTo 53) 2045 hd (by decide) (Nat.le_refl _) (by decide)
  have h45 := twoTo_add 1 2044
  have h98 := twoTo_add 54 2044
  simp only [Nat.reduceAdd] at h45 h98
  have h1 : twoTo 1 = 2 := rfl
  have h53 : twoTo 53 = 9007199254740992 := rfl
  have h54 : twoTo 54 = 18014398509481984 := rfl
  have hinf : (ofUnits negative num den).isInfinite = true ↔
      (ofUnits negative num den).Reaches (twoTo 53 * twoTo 2045) := by
    cases hx : ofUnits negative num den with
    | nan => exact ⟨nofun, nofun⟩
    | infinite _ => exact ⟨fun _ => trivial, fun _ => rfl⟩
    | finite sign m p =>
        obtain ⟨hm, hp⟩ := significand_lt hd hx
        refine ⟨nofun, fun h => ?_⟩
        have h : twoTo 53 * twoTo 2045 ≤ m * twoTo p := h
        have hlt : m * twoTo p < twoTo 53 * twoTo 2045 :=
          Nat.lt_of_lt_of_le (Nat.mul_lt_mul_of_pos_right hm (twoTo_pos p))
            (Nat.mul_le_mul_left _ (twoTo_le hp))
        omega
  rw [hinf, hreach, h98, h45, h1, h53, h54, Nat.mul_comm den, Nat.mul_assoc, Nat.mul_assoc]
  generalize twoTo 2044 * den = D
  omega

/-- **The integers beyond the format.** -/
theorem isInfinite_ofInt (n : Nat) :
    (ofInt n).isInfinite = true ↔ twoTo 1024 ≤ n + twoTo 970 := by
  have hn : decide ((n : Int) < 0) = false := by simp
  have hunits : ofInt n = ofUnits false (n * twoTo 1074) 1 := by
    unfold ofInt ofRatio
    rw [hn, Int.natAbs_natCast, unitsPerOne]
  have h98 := twoTo_add 1024 1074
  have h44 := twoTo_add 970 1074
  simp only [Nat.reduceAdd] at h98 h44
  rw [hunits, isInfinite_ofUnits _ _ (by decide), Nat.mul_one, Nat.mul_one, h98, h44, ← Nat.add_mul]
  exact Nat.mul_le_mul_right_iff (twoTo_pos 1074)

/-- A quotient of at most one is within the format. -/
theorem isSome_quotient? {n d : Int} (hd : d ≠ 0) (h : n.natAbs ≤ d.natAbs) :
    (quotient? n d).isSome = true := by
  have hpos : 0 < d.natAbs := Int.natAbs_pos.mpr hd
  have hone : unitsPerOne ≤ twoTo 2044 := twoTo_le (by decide)
  have hsmall : unitsPerOne + twoTo 2044 < twoTo 2098 := by
    have h98 := twoTo_add 54 2044
    have h54 : twoTo 54 = 18014398509481984 := rfl
    have hp := twoTo_pos 2044
    simp only [Nat.reduceAdd] at h98
    rw [h98, h54]
    generalize twoTo 2044 = most at hone hp
    omega
  rw [isSome_quotient?_eq, Bool.not_eq_true', ← Bool.not_eq_true, ofRatio, isInfinite_ofUnits _ _ hpos,
    Nat.not_le]
  calc n.natAbs * unitsPerOne + twoTo 2044 * d.natAbs
      ≤ d.natAbs * unitsPerOne + twoTo 2044 * d.natAbs :=
        Nat.add_le_add_right (Nat.mul_le_mul_right _ h) _
    _ = (unitsPerOne + twoTo 2044) * d.natAbs := by rw [Nat.mul_comm, ← Nat.add_mul]
    _ < twoTo 2098 * d.natAbs := Nat.mul_lt_mul_of_pos_right hsmall hpos

/-! ## 5. Decimals -/

/-- A number is not less than what its digits are estimated from. -/
theorem tenTo_decimalWidth_le {n : Nat} (h : n ≠ 0) : tenTo (ofDecimal.decimalWidth n) ≤ n := by
  refine le_trans ?_ (Nat.log2_self_le h)
  unfold ofDecimal.decimalWidth
  have hten : (10 ^ (n.log2 * 3 / 10)) ^ 10 ≤ (2 ^ n.log2) ^ 10 := by
    calc (10 ^ (n.log2 * 3 / 10)) ^ 10
        = 10 ^ (n.log2 * 3 / 10 * 10) := (Nat.pow_mul ..).symm
      _ ≤ 10 ^ (3 * n.log2) := Nat.pow_le_pow_right (by decide) (by omega)
      _ = (10 ^ 3) ^ n.log2 := Nat.pow_mul ..
      _ ≤ (2 ^ 10) ^ n.log2 := Nat.pow_le_pow_left (by decide) _
      _ = (2 ^ n.log2) ^ 10 := by rw [← Nat.pow_mul, ← Nat.pow_mul, Nat.mul_comm]
  exact (Nat.pow_le_pow_iff_left (by decide)).mp hten

/-- A decimal that is called great without a look at its power has more than 331 digits before the point. -/
theorem tenTo_le_of_great {digits : Nat} {power : Int} (h0 : digits ≠ 0)
    (h : 330 < power + (ofDecimal.decimalWidth digits : Int)) :
    tenTo 331 * tenTo (-power).toNat ≤ digits * tenTo power.toNat :=
  calc tenTo 331 * tenTo (-power).toNat
      = tenTo (331 + (-power).toNat) := (tenTo_add ..).symm
    _ ≤ tenTo (ofDecimal.decimalWidth digits + power.toNat) := tenTo_le (by omega)
    _ = tenTo (ofDecimal.decimalWidth digits) * tenTo power.toNat := tenTo_add ..
    _ ≤ digits * tenTo power.toNat := Nat.mul_le_mul_right _ (tenTo_decimalWidth_le h0)

/-- What is beyond the format has the sign of the quotient. -/
theorem eq_infinite_of_isInfinite (hd : 0 < den) (h : (ofUnits negative num den).isInfinite = true) :
    ofUnits negative num den = .infinite negative := by
  obtain ⟨p, -, -, hx⟩ := ofUnits_spec negative num hd
  rcases hx with ⟨-, hx⟩ | ⟨-, hx⟩
  all_goals
    rw [hx, isInfinite_pack] at h
    rw [hx, pack, if_pos h]

theorem ofUnits_zero (hd : 0 < den) : ofUnits negative 0 den = .finite negative 0 0 := by
  simp [ofUnits, pack, roundHalfEven, twoTo, hd]

/-- **A decimal with a fraction** is rounded once; that the power is not computed for zero and for what
    is far beyond the format makes no difference. -/
theorem ofDecimal_eq_ofUnits {digits length places : Nat} (hlen : places ≤ length) :
    ofDecimal negative digits length (-(places : Int)) =
      ofUnits negative (digits * unitsPerOne) (tenTo places) := by
  have hneg : (-(-(places : Int))).toNat = places := by omega
  have hpos : (-(places : Int)).toNat = 0 := by omega
  unfold ofDecimal
  by_cases h0 : digits = 0
  · rw [if_pos (.inl h0), h0, Nat.zero_mul, ofUnits_zero (tenTo_pos places)]
  · rw [if_neg (by omega)]
    split
    · next hgreat =>
        have hle := tenTo_le_of_great h0 hgreat
        rw [hneg, hpos, tenTo_zero, Nat.mul_one] at hle
        have hten : twoTo 2098 ≤ tenTo 331 * unitsPerOne := by decide +kernel
        refine (eq_infinite_of_isInfinite (tenTo_pos places) ?_).symm
        rw [isInfinite_ofUnits _ _ (tenTo_pos places)]
        calc twoTo 2098 * tenTo places
            ≤ tenTo 331 * unitsPerOne * tenTo places := Nat.mul_le_mul_right _ hten
          _ = tenTo 331 * tenTo places * unitsPerOne := Nat.mul_right_comm ..
          _ ≤ digits * unitsPerOne := Nat.mul_le_mul_right _ hle
          _ ≤ digits * unitsPerOne + twoTo 2044 * tenTo places := Nat.le_add_right ..
    · split
      · next hp =>
          obtain rfl : places = 0 := by omega
          rw [hpos, tenTo_zero, Nat.mul_one]
          rfl
      · rw [hneg]
        rfl

end StepRunner.Binary64
