import Mathlib.Data.List.Induction
import Mathlib.Tactic.Ring
import StepRunner.Number.Decimal

/-!
# Digits

* `ofDigits_append`: the value of digits put together, with `ofDigits_replicate` for zeros in front;
* `ofDigits_decimal`: a number written in decimal reads back as itself;
* `decimal_bounds`: how many digits a number has;
* `head?_decimal`: no zero stands in front.
-/

namespace StepRunner.Number

open Text

/-! ## 1. Powers of ten -/

theorem tenTo_zero : tenTo 0 = 1 := rfl

theorem tenTo_add (m n : Nat) : tenTo (m + n) = tenTo m * tenTo n := Nat.pow_add 10 m n

theorem tenTo_succ (n : Nat) : tenTo (n + 1) = 10 * tenTo n := Nat.pow_succ'

theorem tenTo_pos (n : Nat) : 0 < tenTo n := Nat.pow_pos (by decide)

theorem tenTo_le {m n : Nat} (h : m ≤ n) : tenTo m ≤ tenTo n := Nat.pow_le_pow_right (by decide) h

/-! ## 2. The value of digits -/

variable {ds es : List Nat}

theorem ofDigits_foldl (value : Nat) :
    ds.foldl (fun value d => 10 * value + d) value = value * tenTo ds.length + ofDigits ds := by
  induction ds generalizing value with
  | nil => simp [ofDigits, tenTo_zero]
  | cons d ds ih =>
      unfold ofDigits
      rw [List.foldl_cons, List.foldl_cons, ih, ih (10 * 0 + d), List.length_cons, tenTo_succ]
      ring

/-- **Digits put together.** -/
theorem ofDigits_append : ofDigits (ds ++ es) = ofDigits ds * tenTo es.length + ofDigits es := by
  rw [ofDigits, List.foldl_append, ofDigits_foldl]
  rfl

theorem ofDigits_singleton (d : Nat) : ofDigits [d] = d := by simp [ofDigits]

theorem ofDigits_replicate (n : Nat) : ofDigits (List.replicate n 0) = 0 := by
  induction n with
  | zero => rfl
  | succ n ih => rw [List.replicate_succ', ofDigits_append, ih, ofDigits_singleton, Nat.zero_mul]

theorem ofDigits_lt (h : ∀ d ∈ ds, d < 10) : ofDigits ds < tenTo ds.length := by
  induction ds using List.reverseRecOn with
  | nil => exact tenTo_pos 0
  | append_singleton ds d ih =>
      rw [List.forall_mem_append] at h
      have hd := h.2 d (List.mem_singleton_self d)
      have hds := ih h.1
      rw [ofDigits_append, ofDigits_singleton, List.length_append, List.length_singleton, tenTo_succ,
        tenTo_succ, tenTo_zero]
      omega

/-! ## 3. Decimal -/

variable {n : Nat}

theorem isAsciiDigit_digitChar (h : n < 10) : isAsciiDigit (digitChar n) = true := by
  revert n
  decide

theorem toNat_digitChar (h : n < 10) : (digitChar n).toNat - 48 = n := by
  revert n
  decide

theorem digitChar_ne_zero (h : n < 10) (h0 : n ≠ 0) : digitChar n ≠ '0' := by
  revert n
  decide

theorem decimal_of_lt (h : n < 10) : decimal n = [digitChar n] := by rw [decimal, if_pos h]

theorem decimal_of_le (h : 10 ≤ n) : decimal n = decimal (n / 10) ++ [digitChar (n % 10)] := by
  rw [decimal, if_neg (Nat.not_lt.mpr h)]

theorem isAsciiDigit_of_mem_decimal : ∀ c ∈ decimal n, isAsciiDigit c = true := by
  induction n using decimal.induct with
  | case1 n h =>
      rw [decimal_of_lt h]
      exact fun c hc => List.mem_singleton.mp hc ▸ isAsciiDigit_digitChar h
  | case2 n h ih =>
      rw [decimal_of_le (Nat.not_lt.mp h), List.forall_mem_append]
      exact ⟨ih, fun c hc => List.mem_singleton.mp hc ▸ isAsciiDigit_digitChar (Nat.mod_lt n (by decide))⟩

/-- **A number in decimal** reads back as itself. -/
theorem ofDigits_decimal (n : Nat) : ofDigits ((decimal n).map fun c => c.toNat - 48) = n := by
  induction n using decimal.induct with
  | case1 n h =>
      rw [decimal_of_lt h, List.map_singleton, ofDigits_singleton, toNat_digitChar h]
  | case2 n h ih =>
      rw [decimal_of_le (Nat.not_lt.mp h), List.map_append, ofDigits_append, ih, List.map_singleton,
        ofDigits_singleton, toNat_digitChar (Nat.mod_lt n (by decide)), List.length_singleton]
      show n / 10 * 10 + n % 10 = n
      omega

theorem decimal_ne_nil (n : Nat) : decimal n ≠ [] := by
  rw [decimal]
  split <;> simp

/-- **No zero stands in front** of a number other than zero. -/
theorem head?_decimal (h0 : n ≠ 0) : (decimal n).head? ≠ some '0' := by
  induction n using decimal.induct with
  | case1 n h =>
      rw [decimal_of_lt h, List.head?_singleton]
      exact fun h' => digitChar_ne_zero h h0 (Option.some.inj h')
  | case2 n h ih =>
      rw [decimal_of_le (Nat.not_lt.mp h), List.head?_append,
        List.head?_eq_some_head (decimal_ne_nil _), Option.some_or, ← List.head?_eq_some_head]
      exact ih (by omega)

/-- **How many digits** a number other than zero has. -/
theorem decimal_bounds (h0 : n ≠ 0) :
    tenTo ((decimal n).length - 1) ≤ n ∧ n < tenTo (decimal n).length := by
  induction n using decimal.induct with
  | case1 n h =>
      rw [decimal_of_lt h, List.length_singleton, tenTo_succ, tenTo_zero]
      exact ⟨Nat.pos_of_ne_zero h0, by omega⟩
  | case2 n h ih =>
      obtain ⟨hlow, hhigh⟩ := ih (by omega)
      have hlen := List.length_pos_iff.mpr (decimal_ne_nil (n / 10))
      have hten : tenTo (decimal (n / 10)).length = 10 * tenTo ((decimal (n / 10)).length - 1) := by
        rw [← tenTo_succ, Nat.sub_add_cancel hlen]
      rw [decimal_of_le (Nat.not_lt.mp h), List.length_append, List.length_singleton, tenTo_succ,
        Nat.add_sub_cancel]
      omega

end StepRunner.Number
