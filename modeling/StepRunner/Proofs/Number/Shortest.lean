import Mathlib.Data.List.TakeWhile
import StepRunner.Number.Shortest
import StepRunner.Proofs.Number.Binary64
import StepRunner.Proofs.Number.Decimal

/-!
# The shortest decimal reads back

* `ofUnits_of_near`: all that is near enough to a number of the format rounds to it;
* `roundsTo_firstGrid`: the decimal that is chosen for a number is near enough to it;
* `ofDecimal_of_roundsTo`: a decimal that is near enough, with zeros in front or behind, reads as the
  number.
-/

namespace StepRunner.Binary64

open Number

variable {negative : Bool} {m p num den num' den' : Nat}

/-! ## 1. Numbers of the format -/

/-- The fields are those of a number of the format. -/
def Canonical : Binary64 → Prop
  | .finite _ m p => m < twoTo 53 ∧ (twoTo 52 ≤ m ∨ p = 0) ∧ p ≤ 2045
  | _ => True

/-- `num / den` smallest units are near enough to a finite number to round to it; at half the distance
    to the next number only where the significand is even. -/
structure Near (m p num den : Nat) : Prop where
  low : (roundingInterval m p).1 * den ≤ 4 * num
  high : 4 * num ≤ (roundingInterval m p).2 * den
  inside : m % 2 = 1 →
    (roundingInterval m p).1 * den ≠ 4 * num ∧ 4 * num ≠ (roundingInterval m p).2 * den

/-- How far down the numbers reach that round to a finite number, in quarters of a smallest unit. -/
def below (m p : Nat) : Nat := if m = twoTo 52 ∧ 0 < p then twoTo p else 2 * twoTo p

theorem roundingInterval_eq :
    roundingInterval m p = (4 * (m * twoTo p) - below m p, 4 * (m * twoTo p) + 2 * twoTo p) := by
  unfold roundingInterval below units
  dsimp only
  rw [Nat.mul_div_cancel_left _ (by decide)]

theorem below_le (m p : Nat) : below m p ≤ 2 * twoTo p := by
  unfold below
  split <;> omega

theorem twoTo_le_below (m p : Nat) : twoTo p ≤ below m p := by
  unfold below
  split <;> omega

theorem roundsTo_iff {point : Nat} {power : Int} : roundsTo m p point power = true ↔
    Near m p (unitsPerOne * point * tenTo power.toNat) (tenTo (-power).toNat) := by
  have hnum : 4 * unitsPerOne * point * tenTo power.toNat =
      4 * (unitsPerOne * point * tenTo power.toNat) := by ring
  unfold roundsTo
  simp only [hnum]
  split
  · next he =>
      rw [Bool.and_eq_true, decide_eq_true_eq, decide_eq_true_eq]
      exact ⟨fun ⟨hl, hh⟩ => ⟨hl, hh, fun ho => by omega⟩, fun h => ⟨h.low, h.high⟩⟩
  · next he =>
      rw [Bool.and_eq_true, decide_eq_true_eq, decide_eq_true_eq]
      exact ⟨fun ⟨hl, hh⟩ => ⟨hl.le, hh.le, fun _ => ⟨hl.ne, hh.ne⟩⟩,
        fun h => ⟨lt_of_le_of_ne h.low (h.inside (by omega)).1,
          lt_of_le_of_ne h.high (h.inside (by omega)).2⟩⟩

/-- An equal quotient is as near. -/
theorem Near.congr (h : Near m p num den) (hd : 0 < den) (hd' : 0 < den')
    (heq : num * den' = num' * den) : Near m p num' den' := by
  have hcross (a : Nat) : a * den' * den = a * den * den' := Nat.mul_right_comm a den' den
  have hnum : 4 * num' * den = 4 * num * den' := by rw [Nat.mul_assoc, ← heq, Nat.mul_assoc]
  refine ⟨?_, ?_, fun ho => ⟨?_, ?_⟩⟩
  · rw [← Nat.mul_le_mul_right_iff hd, hcross, hnum]
    exact Nat.mul_le_mul_right _ h.low
  · rw [← Nat.mul_le_mul_right_iff hd, hcross, hnum]
    exact Nat.mul_le_mul_right _ h.high
  · intro he
    refine (h.inside ho).1 (Nat.eq_of_mul_eq_mul_right hd' ?_)
    rw [← hcross, he, hnum]
  · intro he
    refine (h.inside ho).2 (Nat.eq_of_mul_eq_mul_right hd' ?_)
    rw [← hcross, ← he, hnum]

theorem tenTo_shift (k : Nat) (power : Int) :
    tenTo k * tenTo (power - k).toNat * tenTo (-power).toNat =
      tenTo power.toNat * tenTo (-(power - k)).toNat := by
  rw [← tenTo_add, ← tenTo_add, ← tenTo_add]
  congr 1
  omega

/-- **Zeros behind a decimal** make no difference. -/
theorem roundsTo_shift {point : Nat} {power : Int} (k : Nat) :
    roundsTo m p (point * tenTo k) (power - k) = true ↔ roundsTo m p point power = true := by
  have heq : unitsPerOne * (point * tenTo k) * tenTo (power - k).toNat * tenTo (-power).toNat =
      unitsPerOne * point * tenTo power.toNat * tenTo (-(power - k)).toNat := by
    rw [Nat.mul_assoc _ (tenTo power.toNat), ← tenTo_shift k power]
    ring
  rw [roundsTo_iff, roundsTo_iff]
  exact ⟨fun h => h.congr (tenTo_pos _) (tenTo_pos _) heq,
    fun h => h.congr (tenTo_pos _) (tenTo_pos _) heq.symm⟩

/-! ## 2. Rounding to the nearest -/

theorem roundHalfEven_eq (hd : 0 < den) (hlow : 2 * (m * den) ≤ 2 * num + den)
    (hhigh : 2 * num ≤ 2 * (m * den) + den)
    (hodd : m % 2 = 1 → 2 * (m * den) ≠ 2 * num + den ∧ 2 * num ≠ 2 * (m * den) + den) :
    roundHalfEven num den = m := by
  have hnum := Nat.div_add_mod num den
  have hr := Nat.mod_lt num hd
  unfold roundHalfEven
  generalize num / den = q at hnum ⊢
  generalize num % den = r at hnum hr ⊢
  rw [Nat.mul_comm] at hnum
  -- the quotient is the number or one less
  have hle : q ≤ m := by
    by_contra h
    have hmul := Nat.mul_le_mul_right den (Nat.succ_le_of_lt (Nat.lt_of_not_le h))
    rw [Nat.succ_mul] at hmul
    omega
  have hge : m ≤ q + 1 := by
    by_contra h
    have hmul := Nat.mul_le_mul_right den (Nat.succ_le_of_lt (Nat.lt_of_not_le h))
    rw [Nat.succ_mul, Nat.succ_mul] at hmul
    omega
  rcases Nat.lt_or_eq_of_le hle with hlt | rfl
  · obtain rfl : m = q + 1 := by omega
    rw [Nat.add_one_mul q den] at hlow hhigh hodd
    dsimp only
    split
    · omega
    · split <;> omega
  · dsimp only
    split
    · omega
    · split <;> omega

/-- An exponent that fits a quotient from below is no greater than one that fits it from above, so the one
    with which it is rounded is the only one. -/
theorem exponent_le {q : Nat} (hlow : 0 < p → twoTo 52 * (twoTo p * den) ≤ num)
    (hhigh : num < twoTo 53 * (twoTo q * den)) : p ≤ q := by
  by_contra h
  have hlow := hlow (by omega)
  have hle : twoTo (53 + q) * den ≤ twoTo (52 + p) * den :=
    Nat.mul_le_mul_right den (twoTo_le (by omega))
  rw [twoTo_add, twoTo_add, Nat.mul_assoc, Nat.mul_assoc] at hle
  omega

theorem ofUnits_eq (hd : 0 < den)
    (hlow : 0 < p → twoTo 52 * (twoTo p * den) ≤ num)
    (hhigh : num < twoTo 53 * (twoTo p * den)) :
    ofUnits negative num den =
      if roundHalfEven num (den * twoTo p) = twoTo 53 then pack negative (twoTo 52) (p + 1)
      else pack negative (roundHalfEven num (den * twoTo p)) p := by
  obtain ⟨q, hq, hq', hcases⟩ := ofUnits_spec negative num hd
  rw [Nat.mul_comm den] at hq
  obtain rfl : q = p := by
    refine Nat.le_antisymm (exponent_le (fun h => ?_) hhigh) (exponent_le hlow hq)
    have hq' := hq' h
    rwa [Nat.mul_comm den] at hq'
  rcases hcases with ⟨hr, e⟩ | ⟨hr, e⟩
  · rw [e, if_pos hr]
  · rw [e, if_neg (Nat.ne_of_lt hr)]

/-- **What is near enough** to a number of the format rounds to it. -/
theorem ofUnits_of_near (hc : (finite negative m p).Canonical) (hm : m ≠ 0)
    (hd : 0 < den) (h : Near m p num den) : ofUnits negative num den = .finite negative m p := by
  obtain ⟨hm53, hm52, hp⟩ := hc
  obtain ⟨hlow, hhigh, hin⟩ := h
  have hE := twoTo_pos p
  rw [roundingInterval_eq] at hlow hhigh hin
  dsimp only at hlow hhigh hin
  rw [Nat.sub_mul, Nat.mul_assoc 4, Nat.mul_assoc m] at hlow hin
  rw [Nat.add_mul, Nat.mul_assoc 4, Nat.mul_assoc 2, Nat.mul_assoc m] at hhigh hin
  have hK : 0 < twoTo p * den := Nat.mul_pos hE hd
  have hone : twoTo p * den ≤ m * (twoTo p * den) :=
    Nat.le_mul_of_pos_left _ (Nat.pos_of_ne_zero hm)
  have htop : m * (twoTo p * den) + twoTo p * den ≤ twoTo 53 * (twoTo p * den) := by
    rw [← Nat.succ_mul]
    exact Nat.mul_le_mul_right _ hm53
  have hpack (s : Nat) : pack negative s p = .finite negative s p := if_neg (by omega)
  have hbelow := below_le m p
  have h52 : twoTo 52 = 4503599627370496 := rfl
  have h53 : twoTo 53 = 9007199254740992 := rfl
  by_cases hunder : m = twoTo 52 ∧ 0 < p ∧ num < m * (twoTo p * den)
  · -- below a power of two the numbers of the format lie twice as close
    obtain ⟨rfl, hp0, hnum⟩ := hunder
    obtain ⟨p, rfl⟩ := Nat.exists_eq_add_one.mpr hp0
    have hb : below (twoTo 52) (p + 1) = twoTo (p + 1) := if_pos ⟨rfl, hp0⟩
    have hK2 : twoTo (p + 1) * den = 2 * (twoTo p * den) := by
      rw [Nat.add_comm, twoTo_add, Nat.mul_assoc]
      rfl
    rw [hb, hK2, h52] at hlow
    rw [hK2, h52] at hnum
    have hround : roundHalfEven num (den * twoTo p) = twoTo 53 := by
      rw [Nat.mul_comm den]
      refine roundHalfEven_eq (Nat.mul_pos (twoTo_pos p) hd) ?_ ?_ ?_
      all_goals rw [h53]; omega
    rw [ofUnits_eq hd ?_ ?_, if_pos hround]
    · exact hpack _
    · rw [h52]; omega
    · rw [h53]; omega
  · -- the quotient is rounded with the exponent of the number
    have hlow' : 4 * (m * (twoTo p * den)) ≤ 4 * num + 2 * (twoTo p * den) := by
      have := Nat.mul_le_mul_right den hbelow
      rw [Nat.mul_assoc] at this
      omega
    have hround : roundHalfEven num (den * twoTo p) = m := by
      rw [Nat.mul_comm den]
      refine roundHalfEven_eq hK (by omega) (by omega) fun ho => ?_
      have hne : m ≠ twoTo 52 := by rintro rfl; cases ho
      have hb : below m p = 2 * twoTo p := if_neg fun h => hne h.1
      rw [hb, Nat.mul_assoc] at hin
      have := hin ho
      omega
    rw [ofUnits_eq hd ?_ ?_, hround, if_neg hm53.ne]
    · exact hpack _
    · intro hp0
      rcases hm52 with h | rfl
      · rcases Nat.lt_or_eq_of_le h with hlt | rfl
        · have := Nat.mul_le_mul_right (twoTo p * den) (Nat.succ_le_of_lt hlt)
          rw [Nat.succ_mul] at this
          omega
        · omega
      · omega
    · omega

/-! ## 3. The decimal of a number -/

/-- Rounding is off by half a unit at most. -/
theorem roundHalfEven_bounds (num : Nat) (hd : 0 < den) : 2 * num ≤ 2 * (roundHalfEven num den * den) + den ∧
    2 * (roundHalfEven num den * den) ≤ 2 * num + den := by
  have hnum := Nat.div_add_mod num den
  have hr := Nat.mod_lt num hd
  unfold roundHalfEven
  generalize num / den = q at hnum ⊢
  generalize num % den = r at hnum hr ⊢
  rw [Nat.mul_comm] at hnum
  dsimp only
  split
  · omega
  · split
    · rw [Nat.add_one_mul q den]
      omega
    · rcases Nat.mod_two_eq_zero_or_one q with h | h
      · rw [h, Nat.add_zero]
        omega
      · rw [h, Nat.add_one_mul q den]
        omega

/-- A point of a grid that is chosen rounds to the number. -/
theorem roundsTo_of_onGrid? {power : Int} {point : Nat} (h : onGrid? m p power = some point) :
    roundsTo m p point power = true := by
  unfold onGrid? at h
  dsimp only at h
  split at h
  · next hfit =>
      obtain rfl := Option.some.inj h
      rw [Bool.and_eq_true] at hfit
      rcases roundHalfEven_cases (units m p * tenTo (-power).toNat) (unitsPerOne * tenTo power.toNat)
        with h | h
      · rw [h]
        exact hfit.1
      · rw [h]
        exact hfit.2
  · split at h
    · next hfit =>
        obtain rfl := Option.some.inj h
        exact hfit
    · split at h
      · next hfit =>
          obtain rfl := Option.some.inj h
          exact hfit
      · cases h

/-- A grid that is fine enough has a point that rounds to the number. -/
theorem roundsTo_roundHalfEven {power : Int} (hm : m < twoTo 53)
    (hfine : unitsPerOne * tenTo power.toNat * tenTo 17 ≤ units m p * tenTo (-power).toNat) :
    roundsTo m p (roundHalfEven (units m p * tenTo (-power).toNat)
      (unitsPerOne * tenTo power.toNat)) power = true := by
  have h53 : twoTo 53 = 9007199254740992 := rfl
  have h17 : tenTo 17 = 100000000000000000 := rfl
  have hA : 0 < unitsPerOne * tenTo power.toNat := Nat.mul_pos (twoTo_pos _) (tenTo_pos _)
  have hbounds := roundHalfEven_bounds (units m p * tenTo (-power).toNat) hA
  rw [roundsTo_iff]
  generalize roundHalfEven (units m p * tenTo (-power).toNat) (unitsPerOne * tenTo power.toNat) =
    point at hbounds ⊢
  have hpoint : unitsPerOne * point * tenTo power.toNat =
      point * (unitsPerOne * tenTo power.toNat) := by ring
  rw [hpoint]
  generalize unitsPerOne * tenTo power.toNat = A at *
  have hB := tenTo_pos (-power).toNat
  generalize tenTo (-power).toNat = B at *
  unfold units at hbounds hfine
  rw [h17] at hfine
  have hm0 : m ≠ 0 := by
    rintro rfl
    omega
  have hgap : 2 * A < twoTo p * B := by
    have hlt : m * twoTo p * B < twoTo 53 * (twoTo p * B) := by
      rw [Nat.mul_assoc]
      exact Nat.mul_lt_mul_of_pos_right hm (Nat.mul_pos (twoTo_pos p) hB)
    rw [h53] at hlt
    omega
  have hone : twoTo p * B ≤ m * twoTo p * B := by
    rw [Nat.mul_assoc]
    exact Nat.le_mul_of_pos_left _ (Nat.pos_of_ne_zero hm0)
  have hbelow := Nat.mul_le_mul_right B (twoTo_le_below m p)
  have hbelow' := Nat.mul_le_mul_right B (below_le m p)
  rw [Nat.mul_assoc] at hbelow'
  have hlow : (4 * (m * twoTo p) - below m p) * B < 4 * (point * A) := by
    rw [Nat.sub_mul, Nat.mul_assoc 4]
    omega
  have hhigh : 4 * (point * A) < (4 * (m * twoTo p) + 2 * twoTo p) * B := by
    rw [Nat.add_mul, Nat.mul_assoc 4, Nat.mul_assoc 2]
    omega
  refine ⟨?_, ?_, fun _ => ?_⟩
  all_goals rw [roundingInterval_eq]
  · exact hlow.le
  · exact hhigh.le
  · exact ⟨hlow.ne, hhigh.ne⟩

theorem units_pos (hm : m ≠ 0) : 0 < units m p := Nat.mul_pos (Nat.pos_of_ne_zero hm) (twoTo_pos p)

/-- Seventeen places behind the leading digit the grid is fine enough. -/
theorem fine_of_leadingExponent (hm : m ≠ 0) :
    unitsPerOne * tenTo (leadingExponent (units m p) - (17 : Nat)).toNat * tenTo 17 ≤
      units m p * tenTo (-(leadingExponent (units m p) - (17 : Nat))).toNat := by
  have hU : unitsPerOne ≤ tenTo 340 := by decide +kernel
  have hU0 : 0 < unitsPerOne := twoTo_pos _
  have hV := units_pos (p := p) hm
  have hQ : units m p * tenTo 340 / unitsPerOne ≠ 0 := by
    refine (Nat.div_pos ?_ hU0).ne'
    exact hU.trans (Nat.le_mul_of_pos_left _ hV)
  have hlead := (decimal_bounds hQ).1
  rw [Nat.le_div_iff_mul_le hU0] at hlead
  have hlen := List.length_pos_iff.mpr (decimal_ne_nil (units m p * tenTo 340 / unitsPerOne))
  unfold leadingExponent
  generalize (decimal (units m p * tenTo 340 / unitsPerOne)).length = len at hlead hlen ⊢
  have hshift : tenTo ((len : Int) - 341 - (17 : Nat)).toNat * tenTo 17 * tenTo 340 =
      tenTo (len - 1) * tenTo (-((len : Int) - 341 - (17 : Nat))).toNat := by
    rw [← tenTo_add, ← tenTo_add, ← tenTo_add]
    congr 1
    omega
  generalize tenTo ((len : Int) - 341 - (17 : Nat)).toNat = A at *
  generalize tenTo (-((len : Int) - 341 - (17 : Nat))).toNat = B at *
  refine Nat.le_of_mul_le_mul_right ?_ (tenTo_pos 340)
  calc unitsPerOne * A * tenTo 17 * tenTo 340
      = unitsPerOne * (A * tenTo 17 * tenTo 340) := by ring
    _ = tenTo (len - 1) * unitsPerOne * B := by rw [hshift]; ring
    _ ≤ units m p * tenTo 340 * B := Nat.mul_le_mul_right B hlead
    _ = units m p * B * tenTo 340 := by ring

/-- **The grid that is found first** has a point that rounds to the number. -/
theorem roundsTo_firstGrid (hm53 : m < twoTo 53) (hm : m ≠ 0) {tried more : Nat}
    (h : tried + more = 17) :
    roundsTo m p (firstGrid m p (leadingExponent (units m p)) tried more).1
      (firstGrid m p (leadingExponent (units m p)) tried more).2 = true := by
  induction more generalizing tried with
  | zero =>
      obtain rfl : tried = 17 := h
      unfold firstGrid
      dsimp only
      exact roundsTo_roundHalfEven hm53 (fine_of_leadingExponent hm)
  | succ more ih =>
      unfold firstGrid
      split
      · next hgrid => exact roundsTo_of_onGrid? hgrid
      · exact ih (by omega)

theorem two_le_interval (hm : m ≠ 0) : 2 ≤ (roundingInterval m p).1 := by
  rw [roundingInterval_eq]
  dsimp only
  have hE := twoTo_pos p
  have hbelow := below_le m p
  have hone : twoTo p ≤ m * twoTo p := Nat.le_mul_of_pos_left _ (Nat.pos_of_ne_zero hm)
  omega

/-! ## 4. The shortest digits -/

/-- The trailing zeros that are dropped go into the exponent. -/
theorem dropZeros_spec (digits : List Char) (power : Int) : ∃ k : Nat,
    digits = (dropZeros digits power).1 ++ List.replicate k '0' ∧
      (dropZeros digits power).2 = power + k := by
  refine ⟨(digits.reverse.takeWhile (· == '0')).length, ?_, rfl⟩
  have hzeros : digits.reverse.takeWhile (· == '0') =
      List.replicate (digits.reverse.takeWhile (· == '0')).length '0' :=
    List.eq_replicate_of_mem fun c hc => by simpa using List.mem_takeWhile_imp hc
  unfold dropZeros
  dsimp only
  generalize (digits.reverse.takeWhile (· == '0')).length = n at hzeros ⊢
  have hsplit : digits = (digits.reverse.dropWhile (· == '0')).reverse ++ List.replicate n '0' := by
    rw [← List.reverse_replicate, ← hzeros, ← List.reverse_append, List.takeWhile_append_dropWhile,
      List.reverse_reverse]
  generalize (digits.reverse.dropWhile (· == '0')).reverse = front at hsplit
  rw [hsplit, List.length_append, List.length_replicate, Nat.add_sub_cancel, List.take_left]

theorem ne_zero_of_roundsTo {point : Nat} {power : Int} (hm : m ≠ 0)
    (h : roundsTo m p point power = true) : point ≠ 0 := by
  rintro rfl
  have hlow := (roundsTo_iff.mp h).low
  have := Nat.mul_le_mul_right (tenTo (-power).toNat) (two_le_interval (p := p) hm)
  have := tenTo_pos (-power).toNat
  rw [Nat.mul_zero, Nat.zero_mul] at hlow
  omega

/-- **The shortest digits** do not begin with a zero and round to the number. -/
theorem shortest_spec (hm53 : m < twoTo 53) (hm : m ≠ 0) :
    (shortest m p).1 ≠ [] ∧ (shortest m p).1.head? ≠ some '0' ∧
      (∀ c ∈ (shortest m p).1, Text.isAsciiDigit c = true) ∧
      roundsTo m p (ofDigits ((shortest m p).1.map fun c => c.toNat - 48)) (shortest m p).2 = true := by
  have hgrid := roundsTo_firstGrid (p := p) hm53 hm (Nat.zero_add 17)
  unfold shortest
  dsimp only
  generalize firstGrid m p (leadingExponent (units m p)) 0 17 = found at hgrid ⊢
  obtain ⟨point, power⟩ := found
  dsimp only at hgrid ⊢
  have h0 := ne_zero_of_roundsTo hm hgrid
  have hhead := head?_decimal h0
  have hdigits := isAsciiDigit_of_mem_decimal (n := point)
  have hvalue := ofDigits_decimal point
  obtain ⟨k, hk, hpower⟩ := dropZeros_spec (decimal point) power
  generalize dropZeros (decimal point) power = short at hk hpower ⊢
  obtain ⟨digits, power'⟩ := short
  obtain rfl : power' = power + k := hpower
  dsimp only at hk ⊢
  have hne : digits ≠ [] := by
    rintro rfl
    rw [List.nil_append] at hk
    cases k with
    | zero => exact decimal_ne_nil point hk
    | succ k => exact hhead (by rw [hk]; rfl)
  rw [hk, List.map_append, List.map_replicate, ofDigits_append] at hvalue
  rw [hk, List.head?_append, List.head?_eq_some_head hne, Option.some_or,
    ← List.head?_eq_some_head] at hhead
  refine ⟨hne, hhead, fun c hc => hdigits c (hk ▸ List.mem_append_left _ hc), ?_⟩
  have hzero : ofDigits (List.replicate k ('0'.toNat - 48)) = 0 := ofDigits_replicate k
  rw [hzero, List.length_replicate, Nat.add_zero] at hvalue
  rw [← roundsTo_shift k, hvalue]
  convert hgrid using 2
  omega

/-! ## 5. Decimals that read as a number -/

theorem interval_le {negative : Bool} (hc : (finite negative m p).Canonical) :
    (roundingInterval m p).2 ≤ 4 * twoTo 2098 := by
  obtain ⟨hm53, -, hp⟩ := hc
  have hE : twoTo p ≤ twoTo 2045 := twoTo_le hp
  have h98 : twoTo 2098 = twoTo 53 * twoTo 2045 := twoTo_add 53 2045
  have hmul : (m + 1) * twoTo p ≤ twoTo 53 * twoTo 2045 := Nat.mul_le_mul hm53 hE
  rw [Nat.add_one_mul] at hmul
  rw [roundingInterval_eq, h98]
  dsimp only
  generalize twoTo 53 * twoTo 2045 = X at *
  omega

/-- A decimal that rounds to a number other than zero is not too small to be looked at. -/
theorem not_small_of_roundsTo {point length : Nat} {power : Int} (hm : m ≠ 0)
    (hlen : point < tenTo length) (h : roundsTo m p point power = true) :
    ¬ (length : Int) + power < -330 := by
  intro hsmall
  have hnear := (roundsTo_iff.mp h).low
  have hpow : power.toNat = 0 := by omega
  have hU : 2 * unitsPerOne ≤ tenTo 331 := by decide +kernel
  have hden : tenTo length * tenTo 331 ≤ tenTo (-power).toNat := by
    rw [← tenTo_add]
    exact tenTo_le (by omega)
  rw [hpow, tenTo_zero, Nat.mul_one] at hnear
  have hlow := Nat.mul_le_mul_right (tenTo (-power).toNat) (two_le_interval (p := p) hm)
  have hlt : unitsPerOne * point < unitsPerOne * tenTo length :=
    Nat.mul_lt_mul_of_pos_left hlen (twoTo_pos _)
  have hle := Nat.mul_le_mul_left (tenTo length) hU
  rw [Nat.mul_left_comm, Nat.mul_comm (tenTo length) unitsPerOne] at hle
  omega

/-- A decimal that rounds to a number of the format is not too great to be looked at. -/
theorem not_great_of_roundsTo {point : Nat} {power : Int} (hc : (finite negative m p).Canonical)
    (h0 : point ≠ 0) (h : roundsTo m p point power = true) :
    ¬ 330 < power + (ofDecimal.decimalWidth point : Int) := by
  intro hgreat
  have hnear := (roundsTo_iff.mp h).high
  have hU : twoTo 2098 < unitsPerOne * tenTo 331 := by decide +kernel
  have hnum := tenTo_le_of_great h0 hgreat
  have hB := tenTo_pos (-power).toNat
  have hhigh := Nat.mul_le_mul_right (tenTo (-power).toNat) (interval_le hc)
  have hleft := Nat.mul_le_mul_left unitsPerOne hnum
  have hlt := Nat.mul_lt_mul_of_pos_right hU hB
  rw [Nat.mul_assoc] at hlt hhigh hnear
  omega

/-- **A decimal that rounds to a number** reads as the number. -/
theorem ofDecimal_of_roundsTo {point length : Nat} {power : Int}
    (hc : (finite negative m p).Canonical) (hm : m ≠ 0) (hlen : point < tenTo length)
    (h : roundsTo m p point power = true) :
    ofDecimal negative point length power = .finite negative m p := by
  have hnear := roundsTo_iff.mp h
  have h0 := ne_zero_of_roundsTo hm h
  unfold ofDecimal
  rw [if_neg (by simp only [h0, false_or]; exact not_small_of_roundsTo hm hlen h),
    if_neg (not_great_of_roundsTo hc h0 h)]
  split
  · next hp =>
      have hden : (-power).toNat = 0 := by omega
      rw [hden, tenTo_zero, Nat.mul_assoc, Nat.mul_comm] at hnear
      exact ofUnits_of_near hc hm (by decide) hnear
  · next hp =>
      have hnum : power.toNat = 0 := by omega
      rw [hnum, tenTo_zero, Nat.mul_one, Nat.mul_comm] at hnear
      exact ofUnits_of_near hc hm (tenTo_pos _) hnear

end StepRunner.Binary64
