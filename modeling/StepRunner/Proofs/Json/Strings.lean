import StepRunner.Json.Reader
import StepRunner.Json.Writer

/-!
# Strings in JSON texts

* `readString_flatMap`: a string that is written reads back as itself. A control character is written as
  an escape of four hexadecimal digits, for which the reader wants at least one character behind them;
  there is always the closing quote;
* `not_mem_stringWith`: no control character is written as it is, so that nothing of a string is taken for
  the end of a line.
-/

namespace StepRunner.Json

open Number

variable {c : Char} {cs more : List Char}

/-! ## 1. Hexadecimal -/

/-- A hexadecimal digit. -/
def hexChar (k : Nat) : Char := if k < 10 then digitChar k else Char.ofNat (87 + k)

theorem hexadecimal_four (n : Nat) : hexadecimal 4 n =
    [hexChar (n / 16 / 16 / 16 % 16), hexChar (n / 16 / 16 % 16), hexChar (n / 16 % 16),
      hexChar (n % 16)] := rfl

theorem hexValue?_hexChar {k : Nat} (h : k < 16) : hexValue? (hexChar k) = some k := by
  revert k
  decide

/-- Four hexadecimal digits read as their number. -/
theorem unit?_hexadecimal {n : Nat} (h : n < 65536) :
    unit? (hexadecimal 4 n ++ c :: more) = some (n, c :: more) := by
  have hdigit (k : Nat) : hexValue? (hexChar (k % 16)) = some (k % 16) :=
    hexValue?_hexChar (Nat.mod_lt k (by decide))
  have hn : ((n / 16 / 16 / 16 % 16 * 16 + n / 16 / 16 % 16) * 16 + n / 16 % 16) * 16 + n % 16 = n := by
    omega
  rw [hexadecimal_four]
  simp only [List.cons_append, List.nil_append, unit?, hdigit, Option.bind_eq_bind, Option.bind_some,
    hn]

/-- The escape of a control character reads as the character. -/
theorem unicodeEscape_control {left : Nat} (hc : c.toNat < 0x20) (hm : more ≠ []) :
    unicodeEscape left (hexadecimal 4 c.toNat ++ more) = .ok (c, more) := by
  obtain ⟨x, more, rfl⟩ := List.exists_cons_of_ne_nil hm
  have hhigh : isHighSurrogate c.toNat = false := by
    simp only [isHighSurrogate, Bool.and_eq_false_iff, decide_eq_false_iff_not]
    omega
  have hlow : isLowSurrogate c.toNat = false := by
    simp only [isLowSurrogate, Bool.and_eq_false_iff, decide_eq_false_iff_not]
    omega
  have hchar : unitChar c.toNat = c := by
    unfold unitChar
    rw [hhigh, hlow]
    exact Char.ofNat_toNat c
  unfold unicodeEscape
  rw [unit?_hexadecimal (by omega)]
  simp only [hhigh, Bool.false_and, Bool.false_eq_true, if_false, hchar]
  split <;> rfl

/-! ## 2. Characters and strings -/

theorem stringChar_ne_nil (c : Char) : stringChar c ≠ [] := by
  unfold stringChar unitEscape
  repeat' split
  all_goals exact List.cons_ne_nil _ _

theorem readString_escape {opened fuel : Nat} {read : List Char} {e x : Char} (he : e ≠ 'u')
    (h : letterEscape? e = some x) :
    readString opened (fuel + 1) read ('\\' :: e :: more) = readString opened fuel (x :: read) more := by
  rw [readString.eq_5 opened read fuel '\\' e more he, if_neg (by decide), if_pos rfl, h]

theorem readString_unicodeEscape {opened fuel : Nat} {read : List Char} {cs : List Char}
    (h : unicodeEscape (cs.length + 1) cs = .ok (c, more)) :
    readString opened (fuel + 1) read ('\\' :: 'u' :: cs) =
      readString opened fuel (c :: read) more := by
  rw [readString.eq_4, if_neg (by decide), if_pos rfl, h]

theorem readString_plain {opened fuel : Nat} {read : List Char} (hquote : c ≠ '"') (hslash : c ≠ '\\')
    (hcontrol : ¬ c.toNat < 0x20) :
    readString opened (fuel + 1) read (c :: more) = readString opened fuel (c :: read) more := by
  rw [readString.eq_def]
  dsimp only
  rw [if_neg hquote, if_neg hslash, if_neg hcontrol]

/-- One character of a string. -/
theorem readString_stringChar {opened fuel : Nat} {read : List Char} (hm : more ≠ []) :
    readString opened (fuel + 1) read (stringChar c ++ more) =
      readString opened fuel (c :: read) more := by
  have hletter {e x : Char} (he : e ≠ 'u') (hx : letterEscape? e = some x) (h : c = x) :
      readString opened (fuel + 1) read (['\\', e] ++ more) =
        readString opened fuel (c :: read) more := by
    subst h
    exact readString_escape he hx
  unfold stringChar
  split
  · next h => exact hletter (by decide) rfl h
  split
  · next h => exact hletter (by decide) rfl h
  split
  · next h => exact hletter (by decide) rfl h
  split
  · next h => exact hletter (by decide) rfl h
  split
  · next h => exact hletter (by decide) rfl h
  split
  · next h => exact hletter (by decide) rfl h
  split
  · next h => exact hletter (by decide) rfl h
  split
  · next h => exact readString_unicodeEscape (unicodeEscape_control h hm)
  · next hquote hslash _ _ _ _ _ hcontrol => exact readString_plain hquote hslash hcontrol

/-- **A string that is written** reads back. -/
theorem readString_flatMap {opened fuel : Nat} (read : List Char) (hf : cs.length < fuel) :
    readString opened fuel read (cs.flatMap stringChar ++ '"' :: more) =
      .ok (String.ofList (read.reverse ++ cs), more) := by
  induction cs generalizing read fuel with
  | nil =>
      obtain ⟨fuel, rfl⟩ := Nat.exists_eq_succ_of_ne_zero (Nat.ne_zero_of_lt hf)
      rw [List.append_nil]
      rfl
  | cons c cs ih =>
      obtain ⟨fuel, rfl⟩ := Nat.exists_eq_succ_of_ne_zero (Nat.ne_zero_of_lt hf)
      rw [List.flatMap_cons, List.append_assoc, readString_stringChar (by simp),
        ih _ (by simpa using hf)]
      simp

theorem length_le_flatMap (cs : List Char) : cs.length ≤ (cs.flatMap stringChar).length := by
  induction cs with
  | nil => exact Nat.le_refl _
  | cons c cs ih =>
      have hc := List.length_pos_iff.mpr (stringChar_ne_nil c)
      rw [List.flatMap_cons, List.length_append, List.length_cons]
      omega

/-- A string between its quotes. -/
theorem readString_stringWith (opened : Nat) (s : String) (more : List Char) :
    readString opened ((s.toList.flatMap stringChar ++ '"' :: more).length + 1) []
      (s.toList.flatMap stringChar ++ '"' :: more) = .ok (s, more) := by
  have hlen := length_le_flatMap s.toList
  rw [readString_flatMap [] (by rw [List.length_append]; omega), List.reverse_nil, List.nil_append,
    String.ofList_toList]

/-! ## 3. Control characters -/

/-- A character below the space. -/
def IsControl (c : Char) : Prop := c.toNat < 0x20

instance (c : Char) : Decidable (IsControl c) := inferInstanceAs (Decidable (c.toNat < 0x20))

variable {d : Char}

theorem not_isControl_hexChar {k : Nat} (h : k < 16) : ¬ IsControl (hexChar k) := by
  revert k
  decide

theorem ne_of_isControl (hd : IsControl d) (hc : ¬ IsControl c) : d ≠ c := by
  intro he
  exact hc (he ▸ hd)

/-- A control character stands in no list of others. -/
theorem not_mem_of_isControl (hd : IsControl d) (cs : List Char)
    (hcs : (cs.all fun c => !decide (IsControl c)) = true) : d ∉ cs := by
  intro hm
  have hnot := List.all_eq_true.mp hcs d hm
  simp [hd] at hnot

/-- Control characters are written as escapes. -/
theorem not_mem_stringChar (hd : IsControl d) (c : Char) : d ∉ stringChar c := by
  have hplain (e : Char) (he : ¬ IsControl e) : d ∉ ['\\', e] := by
    rw [List.mem_cons, List.mem_singleton, not_or]
    exact ⟨ne_of_isControl hd (by decide), ne_of_isControl hd he⟩
  have hdigit (k : Nat) : d ≠ hexChar (k % 16) :=
    ne_of_isControl hd (not_isControl_hexChar (Nat.mod_lt k (by decide)))
  unfold stringChar unitEscape
  split
  · exact hplain _ (by decide)
  split
  · exact hplain _ (by decide)
  split
  · exact hplain _ (by decide)
  split
  · exact hplain _ (by decide)
  split
  · exact hplain _ (by decide)
  split
  · exact hplain _ (by decide)
  split
  · exact hplain _ (by decide)
  split
  · rw [List.mem_cons, List.mem_cons, hexadecimal_four, not_or, not_or]
    exact ⟨ne_of_isControl hd (by decide), ne_of_isControl hd (by decide), by simp [hdigit]⟩
  · next h =>
      intro hm
      obtain rfl := List.mem_singleton.mp hm
      exact h hd

theorem not_mem_stringWith (hd : IsControl d) (s : String) : d ∉ stringWith stringChar s := by
  have hquote : d ≠ '"' := ne_of_isControl hd (by decide)
  simp [stringWith, not_mem_stringChar hd, hquote]

end StepRunner.Json
