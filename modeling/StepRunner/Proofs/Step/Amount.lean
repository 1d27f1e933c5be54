import Mathlib.Data.List.TakeWhile
import StepRunner.Proofs.Number.Thousandfold
import StepRunner.Proofs.Text.Scan
import StepRunner.Step.Amount

/-!
# Amounts of time that cannot be told

An amount is read by way of a binary64 number, of seconds a thousand times as much. It cannot be told
where that number is infinite: `milliseconds_eq_error_iff` says from which amount on (`IsBeyond`), and
`amount?_eq_error_iff` the same of the first amount of a sentence.
-/

namespace StepRunner.Step

open Text Number Binary64

variable {a : WrittenAmount} {cs : List Char}

/-! ## 1. What an amount is made of -/

/-- The digits of an amount, read without the point. -/
def WrittenAmount.digits (a : WrittenAmount) : Nat := ofDigits (digitValues (a.whole ++ a.fraction))

/-- From where on an amount cannot be told: half a unit of the last place below the first power of two
    beyond the format; for seconds, half a unit below the first number a thousand times which reaches
    this. -/
def WrittenAmount.limit (a : WrittenAmount) : Nat :=
  if a.inMilliseconds then twoTo 1024 - twoTo 970 else 9223372036854775 * twoTo 961

/-- The amount is not below the limit. -/
def WrittenAmount.IsBeyond (a : WrittenAmount) : Prop := a.limit * tenTo a.fraction.length ≤ a.digits

instance (a : WrittenAmount) : Decidable a.IsBeyond := by
  unfold WrittenAmount.IsBeyond
  infer_instance

theorem length_digitValues (h : ∀ c ∈ cs, isDigit c = true) : (digitValues cs).length = cs.length := by
  unfold digitValues
  induction cs with
  | nil => rfl
  | cons c cs ih =>
      rw [List.forall_mem_cons] at h
      obtain ⟨d, hd⟩ := Option.isSome_iff_exists.mp h.1
      rw [List.filterMap_cons_some hd, List.length_cons, List.length_cons, ih h.2]

theorem isDigit_fractionHere : ∀ c ∈ (fractionHere cs).1, isDigit c = true := by
  unfold fractionHere
  split
  · split
    · exact nofun
    · exact fun c hc => List.mem_takeWhile_imp hc
  · exact nofun

/-- **An amount is made of digits**, on both sides of the point. -/
theorem isDigit_of_amountHere? (h : amountHere? cs = some a) : ∀ c ∈ a.whole ++ a.fraction, isDigit c = true := by
  unfold amountHere? at h
  dsimp only at h
  split at h
  · cases h
  · obtain ⟨unit, -, rfl⟩ := Option.map_eq_some_iff.mp h
    rw [List.forall_mem_append]
    exact ⟨fun c hc => List.mem_takeWhile_imp hc, isDigit_fractionHere⟩

/-! ## 2. The number of an amount -/

/-- The number of an amount is a quotient that is rounded. -/
theorem number_eq_ofUnits (hdigits : ∀ c ∈ a.whole ++ a.fraction, isDigit c = true) :
    a.number = ofUnits false (a.digits * unitsPerOne) (tenTo a.fraction.length) := by
  refine ofDecimal_eq_ofUnits ?_
  rw [length_digitValues hdigits, List.length_append]
  exact Nat.le_add_left ..

/-- A number with a significand of 53 bits, a thousand times and rounded, is beyond the format exactly
    where it reaches `(2 ^ 62 / 1000) · 2 ^ 2036` units, the quotient rounded up. -/
theorem isInfinite_mul_thousand {num den : Nat} (hd : 0 < den) :
    ((ofUnits false num den).mul (ofInt 1000)).isInfinite = true ↔
      (ofUnits false num den).Reaches (4611686018427388 * twoTo 2036) := by
  cases hx : ofUnits false num den with
  | nan => exact absurd hx (ofUnits_ne_nan hd)
  | infinite sign =>
      rw [ofInt_thousand]
      exact iff_of_true rfl trivial
  | finite sign m p =>
      obtain ⟨hm, -⟩ := significand_lt hd hx
      have h98 := twoTo_add 62 2036
      have h44 := twoTo_add 8 2036
      have h62 : twoTo 62 = 4611686018427387904 := rfl
      have h8 : twoTo 8 = 256 := rfl
      simp only [Nat.reduceAdd] at h98 h44
      rw [finite_mul_thousand, isInfinite_ofUnits _ _ Nat.one_pos, Nat.mul_one, Nat.mul_one, h98, h44, h62, h8, Reaches,
        Binary64.units]
      rcases Nat.lt_or_ge p 2036 with hlt | hge
      · -- a smaller exponent makes the number too small on both sides
        have hsmall : m * twoTo p < twoTo 53 * twoTo 2035 :=
          Nat.lt_of_lt_of_le (Nat.mul_lt_mul_of_pos_right hm (twoTo_pos p))
            (Nat.mul_le_mul_left _ (twoTo_le (Nat.le_of_lt_succ hlt)))
        have h36 := twoTo_add 1 2035
        have h1 : twoTo 1 = 2 := rfl
        have h53 : twoTo 53 = 9007199254740992 := rfl
        simp only [Nat.reduceAdd] at h36
        rw [h53] at hsmall
        rw [h36, h1]
        generalize m * twoTo p = N at *
        generalize twoTo 2035 = U at *
        omega
      · -- any other exponent makes it a multiple of the unit of the bound
        have hmul : m * twoTo p = m * twoTo (p - 2036) * twoTo 2036 := by
          rw [Nat.mul_assoc, ← twoTo_add, Nat.sub_add_cancel hge]
        rw [hmul, ← Nat.mul_assoc, ← Nat.add_mul, Nat.mul_le_mul_right_iff (twoTo_pos 2036),
          Nat.mul_le_mul_right_iff (twoTo_pos 2036)]
        generalize m * twoTo (p - 2036) = k
        omega

/-! ## 3. From where on an amount cannot be told -/

theorem milliseconds_eq_error : a.milliseconds = .error .amountTooLarge ↔
    (if a.inMilliseconds then a.number else a.number.mul (ofInt 1000)).truncate? = none := by
  unfold WrittenAmount.milliseconds
  dsimp only
  split
  · next h =>
      rw [h]
      exact ⟨nofun, nofun⟩
  · next h => exact iff_of_true rfl h

/-- **An amount cannot be told** exactly from the limit on. -/
theorem milliseconds_eq_error_iff (hdigits : ∀ c ∈ a.whole ++ a.fraction, isDigit c = true) :
    a.milliseconds = .error .amountTooLarge ↔ a.IsBeyond := by
  have hten := tenTo_pos a.fraction.length
  have hnan : a.number ≠ .nan := number_eq_ofUnits hdigits ▸ ofUnits_ne_nan hten
  rw [milliseconds_eq_error, WrittenAmount.IsBeyond, WrittenAmount.limit]
  generalize hten' : tenTo a.fraction.length = T at *
  split
  · rw [truncate?_eq_none_iff hnan, number_eq_ofUnits hdigits, hten', isInfinite_ofUnits _ _ hten]
    have h98 := twoTo_add_units 1024
    have h44 := twoTo_add_units 970
    simp only [Nat.reduceAdd] at h98 h44
    rw [h98, h44, Nat.mul_right_comm, Nat.mul_right_comm (twoTo 970), ← Nat.add_mul,
      Nat.mul_le_mul_right_iff unitsPerOne_pos, Nat.sub_mul]
    omega
  · rw [truncate?_eq_none_iff (mul_thousand_ne_nan hnan), number_eq_ofUnits hdigits, hten',
      isInfinite_mul_thousand hten, reaches_ofUnits hten (by decide) (by decide) (by decide)]
    have h35 := twoTo_add_units 961
    have h36 := twoTo_add 2035 1
    have h1 : twoTo 1 = 2 := rfl
    simp only [Nat.reduceAdd] at h35 h36
    have hunit : T * twoTo 2036 = 2 * (twoTo 961 * T * unitsPerOne) := by
      rw [h36, h35, h1, Nat.mul_comm _ 2, Nat.mul_left_comm T, ← Nat.mul_assoc T, Nat.mul_comm T]
    have hscale : 9223372036854775 * twoTo 961 * T ≤ a.digits ↔
        9223372036854775 * (twoTo 961 * T * unitsPerOne) ≤ a.digits * unitsPerOne := by
      rw [← Nat.mul_assoc, ← Nat.mul_assoc, Nat.mul_le_mul_right_iff unitsPerOne_pos]
    rw [hunit, hscale]
    omega

/-- **The first amount of a text** cannot be told exactly from the limit on. -/
theorem amount?_eq_error_iff : amount? cs = .error .amountTooLarge ↔
    ∃ a, search (fun _ => amountHere?) cs = some a ∧ a.IsBeyond := by
  unfold amount?
  cases hs : search (fun _ => amountHere?) cs with
  | none => exact ⟨nofun, fun ⟨a, h, _⟩ => nomatch h⟩
  | some a =>
      obtain ⟨before, rest, -, hread⟩ := exists_of_search_eq_some hs
      have hiff := milliseconds_eq_error_iff (isDigit_of_amountHere? hread)
      dsimp only
      constructor
      · intro h
        cases hm : a.milliseconds with
        | ok n =>
            rw [hm] at h
            cases h
        | error g => exact ⟨a, rfl, hiff.mp hm⟩
      · intro h
        obtain ⟨b, hb, hbeyond⟩ := h
        obtain rfl := Option.some.inj hb
        rw [hiff.mpr hbeyond]
        rfl

end StepRunner.Step
