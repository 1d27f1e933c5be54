import Mathlib.Data.List.Basic
import StepRunner.Text.Base64

/-!
# Reading base64 back

`decode?_encode`: what was encoded is decoded to the same bytes. A text of bytes is the digits of their
groups of six bits (`sextets`) and the padding of the last group (`encode_eq`); the digits end where the
padding begins.
-/

namespace StepRunner.Text.Base64

variable {bs : List UInt8} {n : Nat}

/-! ## 1. Digits -/

theorem value?_digit : ∀ n < 64, value? (digit n) = some n := by decide

/-- The groups of six bits. -/
def sextets : List UInt8 → List Nat
  | [] => []
  | [a] =>
    let n := a.toNat * 16
    [n / 64, n % 64]
  | [a, b] =>
    let n := (a.toNat * 256 + b.toNat) * 4
    [n / 4096, n / 64 % 64, n % 64]
  | a :: b :: c :: rest =>
    let n := (a.toNat * 256 + b.toNat) * 256 + c.toNat
    n / 262144 :: n / 4096 % 64 :: n / 64 % 64 :: n % 64 :: sextets rest

/-- The number of characters that fill up the last group. -/
def missing : List UInt8 → Nat
  | [] => 0
  | [_] => 2
  | [_, _] => 1
  | _ :: _ :: _ :: rest => missing rest

theorem lt_of_mem_sextets (bs : List UInt8) : ∀ n ∈ sextets bs, n < 64 := by
  induction bs using sextets.induct with
  | case1 => exact nofun
  | case2 a =>
      have ha := a.toNat_lt
      simp only [sextets, List.forall_mem_cons]
      exact ⟨by omega, by omega, nofun⟩
  | case3 a b =>
      have ha := a.toNat_lt
      have hb := b.toNat_lt
      simp only [sextets, List.forall_mem_cons]
      exact ⟨by omega, by omega, by omega, nofun⟩
  | case4 a b c rest ih =>
      have ha := a.toNat_lt
      have hb := b.toNat_lt
      have hc := c.toNat_lt
      simp only [sextets, List.forall_mem_cons]
      exact ⟨by omega, by omega, by omega, by omega, ih⟩

theorem encode_eq (bs : List UInt8) :
    encode bs = (sextets bs).map digit ++ List.replicate (missing bs) '=' := by
  induction bs using sextets.induct with
  | case1 | case2 | case3 => rfl
  | case4 a b c rest ih => simp only [encode, sextets, missing, List.map_cons, List.cons_append, ih]

/-! ## 2. Reading -/

theorem ofNat_of_eq {a : UInt8} (h : n = a.toNat) : UInt8.ofNat n = a := by
  rw [h, UInt8.ofNat_toNat]

/-- **The bytes of the groups** are the bytes. -/
theorem bytes_sextets (bs : List UInt8) : bytes (sextets bs) = bs := by
  induction bs using sextets.induct with
  | case1 => rfl
  | case2 a =>
      simp only [sextets, bytes]
      rw [ofNat_of_eq (a := a) (by omega)]
  | case3 a b =>
      have hb := b.toNat_lt
      simp only [sextets, bytes]
      rw [ofNat_of_eq (a := a) (by omega), ofNat_of_eq (a := b) (by omega)]
  | case4 a b c rest ih =>
      have hb := b.toNat_lt
      have hc := c.toNat_lt
      simp only [sextets, bytes]
      rw [ofNat_of_eq (a := a) (by omega), ofNat_of_eq (a := b) (by omega),
        ofNat_of_eq (a := c) (by omega), ih]

theorem isPadded_sextets (bs : List UInt8) :
    isPadded (sextets bs).length (List.replicate (missing bs) '=') = true := by
  have hlength : ((sextets bs).length % 4 = 0 ∧ missing bs = 0) ∨
      ((sextets bs).length % 4 = 2 ∧ missing bs = 2) ∨ ((sextets bs).length % 4 = 3 ∧ missing bs = 1) := by
    induction bs using sextets.induct with
    | case1 | case2 | case3 => simp [sextets, missing]
    | case4 a b c rest ih =>
        simp only [sextets, missing, List.length_cons]
        omega
  rcases hlength with ⟨h, e⟩ | ⟨h, e⟩ | ⟨h, e⟩ <;> simp [isPadded, h, e]

/-- **What was encoded** is decoded. -/
theorem decode?_encode (bs : List UInt8) : decode? (encode bs) = some bs := by
  have hvalue (n : Nat) (h : n ∈ sextets bs) : value? (digit n) = some n :=
    value?_digit n (lt_of_mem_sextets bs n h)
  have hdigits : (encode bs).takeWhile (fun c => (value? c).isSome) = (sextets bs).map digit := by
    rw [encode_eq, List.takeWhile_append_of_pos, List.takeWhile_replicate]
    · exact List.append_nil _
    · intro c hc
      obtain ⟨n, hn, rfl⟩ := List.mem_map.mp hc
      rw [hvalue n hn]
      rfl
  have hrest : (encode bs).drop ((sextets bs).map digit).length = List.replicate (missing bs) '=' := by
    rw [encode_eq, List.drop_left]
  have hvalues : ((sextets bs).map digit).filterMap value? = sextets bs := by
    rw [List.filterMap_map]
    exact (List.filterMap_congr hvalue).trans List.filterMap_some
  unfold decode?
  dsimp only
  rw [hdigits, hrest, hvalues, List.length_map, isPadded_sextets, if_pos rfl, bytes_sextets]

end StepRunner.Text.Base64
