import StepRunner.Proofs.Step.Classification
import StepRunner.Proofs.Step.Shape

/-!
# How long a sentence waits

The sentence that asks to wait for an amount is a wait, for the whole milliseconds that the amount denotes, but for
what its number loses on the way: it is a binary64 number of the unit, seconds a thousand times it.

* `amountHere?_text`: an amount is read as it is written;
* `find?_waitFor`: the sentence is a wait, whatever its digits;
* `WrittenAmount.survives_iff_of_whole`, `WrittenAmount.IsPlain.survives_of_lt`: amounts that lose nothing;
* `milliseconds_eq_denoted_iff`, `milliseconds_of_lt`: when an amount comes out as what it denotes, and as what else;
* `parseStep_waitFor`: the sentence as a step.
-/

namespace StepRunner.Step

open Text Number Binary64

variable {a : WrittenAmount} {c d : Char} {cs : List Char} {f : Family}

/-! ## 1. Digits -/

theorem foldsToLetter_eq_false_of_isDigit (h : isDigit c = true) : foldsToLetter c = false := by
  by_cases hc : c.toNat < 0x80
  · have hascii : ∀ c : Char, c.toNat < 0x80 → isDigit c = true → foldsToLetter c = false :=
      forall_ascii (by decide +kernel)
    exact hascii c hc h
  · rcases fold_of_not_ascii hc with hspecial | hfold
    · have hnone : (['\u0130', '\u0131', '\u017F', '\u212A'].any isDigit) = false := by decide +kernel
      exact absurd h (List.any_eq_false.mp hnone c hspecial)
    · unfold foldsToLetter
      rw [hfold, Bool.eq_false_iff, ne_eq, Bool.and_eq_true, decide_eq_true_eq, decide_eq_true_eq]
      exact fun hl => hc (ascii_of_le hl.2 (by decide))

theorem isBlank_eq_false_of_isDigit (h : isDigit c = true) : isBlank c = false := IsAddressChar.notBlank (.inr (.inl h))

/-- The characters are digits and points. -/
def IsNumeric (cs : List Char) : Prop := ∀ c ∈ cs, isDigit c = true ∨ c = '.'

theorem IsNumeric.plain (h : IsNumeric cs) (hc : c ∈ cs) :
    isBlank c = false ∧ foldsToLetter c = false ∧ c ≠ '\u0130' := by
  rcases h c hc with hdigit | rfl
  · refine ⟨isBlank_eq_false_of_isDigit hdigit, foldsToLetter_eq_false_of_isDigit hdigit, ?_⟩
    rintro rfl
    exact absurd hdigit (by decide +kernel)
  · decide

/-- In lower case a text without a dotted capital i has a character for each of its own, and no other. -/
theorem exists_alike_of_mem_lowerFrom (hdotted : '\u0130' ∉ cs) (acc : List Char) (hd : d ∈ lowerFrom acc cs) :
    ∃ c ∈ cs, Alike c d := by
  induction cs generalizing acc with
  | nil => cases hd
  | cons c cs ih =>
      rw [List.mem_cons, not_or] at hdotted
      obtain ⟨e, he, halike⟩ := lowerFrom_cons acc cs (Ne.symm hdotted.1)
      rw [he, List.mem_cons] at hd
      rcases hd with rfl | hd
      · exact ⟨c, List.mem_cons_self, halike⟩
      · obtain ⟨x, hx, hxd⟩ := ih hdotted.2 (c :: acc) hd
        exact ⟨x, List.mem_cons_of_mem c hx, hxd⟩

theorem IsNumeric.lower (h : IsNumeric cs) (hd : d ∈ lower cs) : isBlank d = false ∧ foldsToLetter d = false := by
  obtain ⟨c, hc, halike⟩ := exists_alike_of_mem_lowerFrom (fun hdotted => (h.plain hdotted).2.2 rfl) [] hd
  obtain ⟨hblank, hletter, -⟩ := h.plain hc
  refine ⟨halike.blank.trans hblank, Bool.eq_false_iff.mpr fun hl => ?_⟩
  have hfold := halike.letter hl
  unfold foldsToLetter at hl hletter
  rw [hfold, hletter] at hl
  cases hl

/-- Where there are neither letters nor blanks stands no trigger word. -/
theorem Family.not_standsIn_of_plain (h : ∀ c ∈ cs, isBlank c = false ∧ foldsToLetter c = false) : ¬ f.StandsIn cs := by
  intro ⟨word, hword, u, hform, before, after, hcs, _⟩
  subst hcs
  obtain ⟨c, hc⟩ := List.exists_mem_of_ne_nil u (hform.ne_nil (isKeyword_of_mem_triggers f hword))
  obtain ⟨hblank, hletter⟩ := h c (by simp [hc])
  rcases hform.chars c hc with hl | hb
  · rw [hletter] at hl
    cases hl
  · rw [hblank] at hb
    cases hb

/-! ## 2. Amounts as they are written -/

/-- An amount in digits, with up to three behind the point, and one of the units. -/
structure WrittenAmount.IsPlain (a : WrittenAmount) : Prop where
  filled : a.whole ≠ []
  digits : ∀ c ∈ a.whole ++ a.fraction, isDigit c = true
  short : a.fraction.length ≤ 3
  unit : String.ofList a.unit ∈ units

/-- The number, with a point in front of a fraction. -/
def WrittenAmount.numeral (a : WrittenAmount) : List Char :=
  a.whole ++ if a.fraction = [] then [] else '.' :: a.fraction

/-- The number and the unit with a space between them. -/
def WrittenAmount.text (a : WrittenAmount) : List Char := a.numeral ++ ' ' :: a.unit

/-- The sentence that asks to wait for the amount. -/
def waitFor (a : WrittenAmount) : List Char := "wait".toList ++ ' ' :: a.text

theorem WrittenAmount.IsPlain.exists_unit (h : a.IsPlain) : ∃ u ∈ units, a.unit = u.toList :=
  ⟨_, h.unit, String.toList_ofList.symm⟩

theorem WrittenAmount.IsPlain.isNumeric (h : a.IsPlain) : IsNumeric a.numeral := by
  have hdigits := List.forall_mem_append.mp h.digits
  unfold WrittenAmount.numeral
  split
  · rw [List.append_nil]
    exact fun c hc => .inl (hdigits.1 c hc)
  · intro c hc
    rcases List.mem_append.mp hc with hc | hc
    · exact .inl (hdigits.1 c hc)
    · exact (List.mem_cons.mp hc).symm.imp (hdigits.2 c) id

theorem unitHere?_of_mem : ∀ u ∈ units, unitHere? (' ' :: u.toList) = some u.toList := by
  decide +kernel

/-- What stands in front of something else than a digit is taken whole. -/
theorem takeWhile_isDigit (hcs : ∀ c ∈ cs, isDigit c = true) (hc : isDigit c = false) (rest : List Char) :
    (cs ++ c :: rest).takeWhile isDigit = cs ∧ (cs ++ c :: rest).dropWhile isDigit = c :: rest := by
  rw [List.takeWhile_append_of_pos hcs, List.dropWhile_append_of_pos hcs, List.takeWhile_cons, List.dropWhile_cons, hc]
  exact ⟨List.append_nil cs, rfl⟩

/-- A fraction is read as it is written, up to the space behind it. -/
theorem fractionHere_append (hcs : ∀ c ∈ cs, isDigit c = true) (rest : List Char) :
    fractionHere ((if cs = [] then [] else '.' :: cs) ++ ' ' :: rest) = (cs, ' ' :: rest) := by
  split
  · next hnone =>
      rw [hnone]
      rfl
  · next hsome =>
      obtain ⟨htake, hdrop⟩ := takeWhile_isDigit hcs (by decide +kernel : isDigit ' ' = false) rest
      rw [List.cons_append, fractionHere, htake, hdrop, if_neg (mt List.isEmpty_iff.mp hsome)]

/-- **An amount is read as it is written.** -/
theorem amountHere?_text (h : a.IsPlain) : amountHere? a.text = some a := by
  obtain ⟨u, hu, hunit⟩ := h.exists_unit
  have hdigits := List.forall_mem_append.mp h.digits
  have hfraction := fractionHere_append hdigits.2 a.unit
  obtain ⟨c, rest, hrest, hc⟩ : ∃ c rest,
      (if a.fraction = [] then [] else '.' :: a.fraction) ++ ' ' :: a.unit = c :: rest ∧ isDigit c = false := by
    split
    · exact ⟨' ', a.unit, rfl, by decide +kernel⟩
    · exact ⟨'.', _, rfl, by decide +kernel⟩
  obtain ⟨htake, hdrop⟩ := takeWhile_isDigit hdigits.1 hc rest
  unfold amountHere? WrittenAmount.text WrittenAmount.numeral
  rw [List.append_assoc, hrest, htake, hdrop, ← hrest, hfraction]
  dsimp only
  rw [if_neg (mt List.isEmpty_iff.mp h.filled), hunit, unitHere?_of_mem u hu, Option.map_some, ← hunit]

/-- Nothing is read where there is no digit. -/
theorem amountHere?_eq_none (hc : isDigit c = false) : amountHere? (c :: cs) = none := by
  unfold amountHere?
  rw [List.takeWhile_cons, hc]
  rfl

theorem search_waitFor (h : a.IsPlain) : search (fun _ => amountHere?) (waitFor a) = some a := by
  have hlead : "wait ".toList.any isDigit = false := by decide +kernel
  have hplace : waitFor a = "wait ".toList ++ a.text := rfl
  refine search_eq_some_iff.mpr ⟨"wait ".toList, a.text, hplace, amountHere?_text h, fun front back hback hne => ?_⟩
  obtain ⟨c, back, rfl⟩ := List.exists_cons_of_ne_nil hne
  exact amountHere?_eq_none (Bool.eq_false_iff.mpr (List.any_eq_false.mp hlead c (by rw [hback]; simp)))

/-! ## 3. The sentence -/

theorem lower_units : ∀ u ∈ units, lower u.toList = u.toList ∧ u.toList.all isWord = true ∧
    u.toList.map fold = u.toList := by
  decide +kernel

theorem not_hasForm_units : ∀ u ∈ units, ∀ g ∈ Family.all, ¬ g.HasForm u.toList := by
  decide +kernel

theorem lower_waitFor (a : WrittenAmount) :
    lower (waitFor a) = "wait".toList ++ ' ' :: (lower a.numeral ++ ' ' :: lower a.unit) := by
  have hwait : lower "wait".toList = "wait".toList := by decide +kernel
  rw [waitFor, lower_append_blank (by decide), hwait, WrittenAmount.text, lower_append_blank (by decide)]

/-- **The words of the sentence** are that of a wait, and no other. -/
theorem standsIn_lower_waitFor (h : a.IsPlain) :
    f.StandsIn (lower (waitFor a)) ↔ f.StandsIn "wait".toList := by
  obtain ⟨u, hu, hunit⟩ := h.exists_unit
  obtain ⟨hlower, hword, hsmall⟩ := lower_units u hu
  have hplain := fun d (hd : d ∈ lower a.numeral) => h.isNumeric.lower hd
  have hends {x : List Char} (hx : ∀ d ∈ x.getLast?, isBlank d = false ∧ fold d ≠ 'o') (y : List Char) :
      f.StandsIn (x ++ ' ' :: y) ↔ f.StandsIn x ∨ f.StandsIn y :=
    Family.standsIn_append_cons_iff (by decide) fun _ => hx
  have hwait : ∀ d ∈ "wait".toList.getLast?, isBlank d = false ∧ fold d ≠ 'o' := by
    intro d hd
    obtain rfl := Option.some.inj hd
    decide
  have hnumeral : ∀ d ∈ (lower a.numeral).getLast?, isBlank d = false ∧ fold d ≠ 'o' := by
    intro d hd
    obtain ⟨hblank, hletter⟩ := hplain d (List.mem_of_getLast? hd)
    refine ⟨hblank, fun ho => ?_⟩
    unfold foldsToLetter at hletter
    rw [ho] at hletter
    cases hletter
  rw [lower_waitFor, hends hwait, hends hnumeral, or_iff_left]
  intro hstands
  rcases hstands with hstands | hstands
  · exact Family.not_standsIn_of_plain hplain hstands
  · rw [hunit, hlower, Family.standsIn_iff_hasForm (List.all_eq_true.mp hword) hsmall] at hstands
    exact not_hasForm_units u hu f f.mem_all hstands

/-- **The sentence is a wait**, whatever its digits. -/
theorem find?_waitFor (h : a.IsPlain) : Family.find? (lower (waitFor a)) = some .wait := by
  have hwords : ∀ g ∈ Family.all, hasTrigger g.triggers "wait".toList = true ↔ g = .wait := by decide +kernel
  have hfirst (g : Family) : g.StandsIn (lower (waitFor a)) ↔ g = .wait := by
    rw [standsIn_lower_waitFor h, ← Family.hasTrigger_iff_standsIn, hwords g g.mem_all]
  refine Family.find?_eq_some_iff.mpr ⟨(hfirst .wait).mpr rfl, fun g hg hstands => ?_⟩
  rw [(hfirst g).mp hstands] at hg
  exact Nat.lt_irrefl _ hg

theorem trim_waitFor (h : a.IsPlain) : trim (waitFor a) = waitFor a := by
  obtain ⟨u, hu, hunit⟩ := h.exists_unit
  have hlast : ∀ u ∈ units, u.toList ≠ [] ∧ u.toList.all (fun c => !isBlank c) = true := by decide +kernel
  obtain ⟨hne, hsolid⟩ := hlast u hu
  have hplace : waitFor a = "wait ".toList ++ (a.numeral ++ [' ']) ++ a.unit := by
    simp [waitFor, WrittenAmount.text]
  refine trim_eq_self_of_ends (fun c hc => ?_) fun c hc => ?_
  · obtain rfl := Option.some.inj hc
    rfl
  · rw [hplace, hunit, List.getLast?_append_of_ne_nil _ hne] at hc
    exact (Bool.not_eq_true' _).mp (List.all_eq_true.mp hsolid c (List.mem_of_getLast? hc))

theorem parseStep_of_milliseconds (h : a.IsPlain) : parseStep (String.ofList (waitFor a)) = a.milliseconds.map fun t =>
    { action := .wait, sentence := String.ofList (waitFor a), timeout := some t } := by
  rw [parseStep, String.toList_ofList, trim_waitFor h, parseTrimmed_of_find? (find?_waitFor h), parseAs.eq_def]
  dsimp only
  rw [amount?, search_waitFor h]
  dsimp only
  cases a.milliseconds with
  | ok t => rfl
  | error fault => rfl

/-! ## 4. What the amount denotes -/

/-- The digits in front of the point. -/
def WrittenAmount.wholeValue (a : WrittenAmount) : Nat := ofDigits (digitValues a.whole)

/-- The digits behind the point. -/
def WrittenAmount.fractionValue (a : WrittenAmount) : Nat := ofDigits (digitValues a.fraction)

/-- The units of a thousandth of a second. -/
def millisecondUnits : List String := ["milliseconds", "millisecond", "ms"]

/-- The amount is one of milliseconds; of the other units each is a second. -/
def WrittenAmount.OfMilliseconds (a : WrittenAmount) : Prop := String.ofList a.unit ∈ millisecondUnits

instance (a : WrittenAmount) : Decidable a.OfMilliseconds := inferInstanceAs (Decidable (_ ∈ _))

/-- The whole milliseconds that the amount denotes: of milliseconds the fraction is dropped, of seconds its digits are
    thousandths, with zeros for those that are not written. -/
def WrittenAmount.denoted (a : WrittenAmount) : Nat :=
  if a.OfMilliseconds then a.wholeValue
  else 1000 * a.wholeValue + a.fractionValue * tenTo (3 - a.fraction.length)

/-- A number that is written in decimal is read as itself. -/
theorem wholeValue_of_decimal {n : Nat} (h : a.whole = decimal n) : a.wholeValue = n := by
  have hascii : ∀ c : Char, c.toNat < 0x80 → isAsciiDigit c = true → digitValue? c = some (c.toNat - 48) :=
    forall_ascii (by decide +kernel)
  have hvalues : digitValues (decimal n) = (decimal n).map fun c => c.toNat - 48 := by
    refine List.filterMap_eq_map_iff_forall_eq_some.mpr fun c hc => ?_
    have hdigit := isAsciiDigit_of_mem_decimal c hc
    have hle : c ≤ '9' := of_decide_eq_true (Bool.and_eq_true_iff.mp hdigit).2
    exact hascii c (ascii_of_le hle (by decide)) hdigit
  rw [WrittenAmount.wholeValue, h, hvalues, ofDigits_decimal]

/-- The units are told apart by how they begin. -/
theorem WrittenAmount.IsPlain.inMilliseconds_iff (h : a.IsPlain) : a.inMilliseconds = true ↔ a.OfMilliseconds := by
  have hunits : ∀ u ∈ units, ((after? "ms".toList (lower u.toList)).isSome ||
      (after? "milli".toList (lower u.toList)).isSome) = true ↔ u ∈ millisecondUnits := by decide +kernel
  obtain ⟨u, hu, hunit⟩ := h.exists_unit
  unfold WrittenAmount.inMilliseconds WrittenAmount.OfMilliseconds
  rw [hunit, String.ofList_toList]
  exact hunits u hu

theorem digits_eq (hfraction : ∀ c ∈ a.fraction, isDigit c = true) :
    a.digits = a.wholeValue * tenTo a.fraction.length + a.fractionValue := by
  rw [WrittenAmount.digits, digitValues, List.filterMap_append, ofDigits_append]
  have hlength := length_digitValues hfraction
  unfold digitValues at hlength
  rw [hlength]
  rfl

theorem digitValue?_lt : ∀ d ∈ digitValue? c, d < 10 := by
  intro d hd
  rw [Option.mem_def] at hd
  unfold digitValue? at hd
  dsimp only at hd
  split at hd
  · split at hd
    · next h =>
        have hle : c.toNat ≤ 57 := h.2
        have := Option.some.inj hd
        omega
    · cases hd
  · obtain ⟨z, hz, rfl⟩ := Option.map_eq_some_iff.mp hd
    have hrow := List.find?_some hz
    rw [Bool.and_eq_true, decide_eq_true_eq, decide_eq_true_eq] at hrow
    omega

theorem fractionValue_lt (hfraction : ∀ c ∈ a.fraction, isDigit c = true) :
    a.fractionValue < tenTo a.fraction.length := by
  rw [← length_digitValues hfraction]
  refine ofDigits_lt fun d hd => ?_
  obtain ⟨c, -, hc⟩ := List.mem_filterMap.mp hd
  exact digitValue?_lt d hc

theorem digits_div_mod (hfraction : ∀ c ∈ a.fraction, isDigit c = true) :
    a.digits / tenTo a.fraction.length = a.wholeValue ∧ a.digits % tenTo a.fraction.length = a.fractionValue := by
  refine (Nat.div_mod_unique (tenTo_pos _)).mpr ⟨?_, fractionValue_lt hfraction⟩
  rw [digits_eq hfraction, Nat.add_comm, Nat.mul_comm]

/-! ## 5. What the amount comes out as -/

/-- The amount comes out as what it denotes: that is a number of the format, and the roundings on the way do not
    carry it over a whole number. -/
def WrittenAmount.Survives (a : WrittenAmount) : Prop :=
  twoTo (a.denoted.log2 - 52) ∣ a.denoted ∧
    if a.OfMilliseconds then ¬ RoundsUp a.denoted a.fractionValue (tenTo a.fraction.length)
    else ¬ FallsShort a.denoted ∧ ¬ Overshoots a.denoted

/-- What an amount of less than 53 bits comes out as: milliseconds may be one more than they denote, seconds one
    less. -/
def WrittenAmount.roundedMilliseconds (a : WrittenAmount) : Nat :=
  if a.OfMilliseconds then
    a.denoted + if RoundsUp a.denoted a.fractionValue (tenTo a.fraction.length) then 1 else 0
  else a.denoted - if FallsShort a.denoted then 1 else 0

instance (a : WrittenAmount) : Decidable a.Survives := by
  unfold WrittenAmount.Survives
  infer_instance

/-- **Whole amounts** come out as what they denote, if that is a number of the format. -/
theorem WrittenAmount.survives_iff_of_whole (hwhole : a.fractionValue = 0) :
    a.Survives ↔ twoTo (a.denoted.log2 - 52) ∣ a.denoted := by
  unfold WrittenAmount.Survives
  refine and_iff_left_of_imp fun hdvd => ?_
  split
  · rw [hwhole]
    exact not_roundsUp_whole (tenTo_pos _)
  · next hseconds =>
      have hthousand : 125 ∣ a.denoted := by
        rw [WrittenAmount.denoted, if_neg hseconds, hwhole, Nat.zero_mul, Nat.add_zero]
        exact Dvd.dvd.mul_right (by decide) _
      exact not_fallsShort_or_overshoots hdvd hthousand

/-- **Milliseconds** of less than 45 bits come out as what they denote, whatever their fraction. -/
theorem WrittenAmount.IsPlain.survives_of_lt (h : a.IsPlain) (hms : a.OfMilliseconds)
    (hsmall : a.denoted < twoTo 44) : a.Survives := by
  have hfraction := (List.forall_mem_append.mp h.digits).2
  refine ⟨dvd_of_lt (hsmall.trans (by decide)), ?_⟩
  rw [if_pos hms]
  exact not_roundsUp_of_lt hsmall (fractionValue_lt hfraction) (Nat.lt_of_le_of_lt (tenTo_le h.short) (by decide))

theorem milliseconds_eq_ok_iff {t : Int} : a.milliseconds = .ok t ↔
    (if a.inMilliseconds then a.number else a.number.mul (ofInt 1000)).truncate? = some t := by
  unfold WrittenAmount.milliseconds
  dsimp only
  split
  · next h => simp [h]
  · next h => simp [h]

theorem WrittenAmount.IsPlain.tenTo_lt (h : a.IsPlain) : tenTo a.fraction.length < twoTo 53 :=
  Nat.lt_of_le_of_lt (tenTo_le h.short) (by decide)

/-- Seconds are a quotient of thousandths. -/
theorem seconds_eq_thousandfold (h : a.IsPlain) (hseconds : ¬ a.OfMilliseconds) :
    a.number.mul (ofInt 1000) = thousandfold a.denoted 1000 := by
  have hfraction := (List.forall_mem_append.mp h.digits).2
  have hthousand : tenTo (3 - a.fraction.length) * tenTo a.fraction.length = 1000 := by
    rw [← tenTo_add, Nat.sub_add_cancel h.short]
    rfl
  have hdenoted : a.denoted = tenTo (3 - a.fraction.length) * a.digits := by
    rw [WrittenAmount.denoted, if_neg hseconds, digits_eq hfraction, ← hthousand]
    ring
  have hscale := thousandfold_scale (tenTo_pos (3 - a.fraction.length)) a.digits (tenTo a.fraction.length)
  rw [hthousand, ← hdenoted] at hscale
  rw [hscale, number_eq_ofUnits h.digits]
  rfl

/-- An amount that can be told denotes a number within the format. -/
theorem denoted_lt (h : a.IsPlain) (hwithin : ¬ a.IsBeyond) : a.denoted < twoTo 1024 := by
  have hfraction := (List.forall_mem_append.mp h.digits).2
  have hdigits := digits_eq hfraction
  have hten := tenTo_pos a.fraction.length
  unfold WrittenAmount.IsBeyond WrittenAmount.limit at hwithin
  rw [ite_congr (propext h.inMilliseconds_iff) (fun _ => rfl) fun _ => rfl] at hwithin
  unfold WrittenAmount.denoted
  split
  · next hms =>
      rw [if_pos hms, Nat.not_le] at hwithin
      have hle : a.wholeValue * tenTo a.fraction.length ≤ a.digits := by omega
      exact Nat.lt_of_lt_of_le (Nat.lt_of_mul_lt_mul_right (hle.trans_lt hwithin)) (Nat.sub_le _ _)
  · next hs =>
      rw [if_neg hs, Nat.not_le] at hwithin
      have hthousand : tenTo a.fraction.length * tenTo (3 - a.fraction.length) = 1000 := by
        rw [← tenTo_add, Nat.add_sub_cancel' h.short]
        rfl
      have htop : 9223372036854775 * twoTo 961 * 1000 ≤ twoTo 1024 := by decide +kernel
      calc 1000 * a.wholeValue + a.fractionValue * tenTo (3 - a.fraction.length)
          = a.digits * tenTo (3 - a.fraction.length) := by rw [hdigits, ← hthousand]; ring
        _ < 9223372036854775 * twoTo 961 * tenTo a.fraction.length * tenTo (3 - a.fraction.length) :=
            Nat.mul_lt_mul_of_pos_right hwithin (tenTo_pos _)
        _ = 9223372036854775 * twoTo 961 * 1000 := by rw [Nat.mul_assoc, hthousand]
        _ ≤ twoTo 1024 := htop

/-- **When an amount comes out** as what it denotes. -/
theorem milliseconds_eq_denoted_iff (h : a.IsPlain) (hwithin : ¬ a.IsBeyond) :
    a.milliseconds = .ok (a.denoted : Int) ↔ a.Survives := by
  have hfraction := (List.forall_mem_append.mp h.digits).2
  have htop := denoted_lt h hwithin
  rw [milliseconds_eq_ok_iff, WrittenAmount.Survives]
  by_cases hms : a.OfMilliseconds
  · obtain ⟨hwhole, hrest⟩ := digits_div_mod hfraction
    have hdenoted : a.denoted = a.digits / tenTo a.fraction.length := by rw [hwhole, WrittenAmount.denoted, if_pos hms]
    rw [if_pos (h.inMilliseconds_iff.mpr hms), if_pos hms, number_eq_ofUnits h.digits, hdenoted, ← hrest]
    rw [hdenoted] at htop
    exact truncate?_quotient_iff (tenTo_pos _) h.tenTo_lt htop
  · rw [if_neg (mt h.inMilliseconds_iff.mp hms), if_neg hms, seconds_eq_thousandfold h hms]
    exact truncate?_thousandths_iff htop

/-- **What an amount comes out as** that denotes less than 53 bits. -/
theorem milliseconds_of_lt (h : a.IsPlain) (hsmall : a.denoted < twoTo 52) :
    a.milliseconds = .ok (a.roundedMilliseconds : Int) := by
  have hfraction := (List.forall_mem_append.mp h.digits).2
  rw [milliseconds_eq_ok_iff, WrittenAmount.roundedMilliseconds]
  by_cases hms : a.OfMilliseconds
  · obtain ⟨hwhole, hrest⟩ := digits_div_mod hfraction
    have hdenoted : a.denoted = a.digits / tenTo a.fraction.length := by rw [hwhole, WrittenAmount.denoted, if_pos hms]
    rw [if_pos (h.inMilliseconds_iff.mpr hms), if_pos hms, number_eq_ofUnits h.digits, hdenoted, ← hrest]
    rw [hdenoted] at hsmall
    exact truncate?_quotient (tenTo_pos _) h.tenTo_lt hsmall
  · rw [if_neg (mt h.inMilliseconds_iff.mp hms), if_neg hms, seconds_eq_thousandfold h hms]
    exact truncate?_thousandths hsmall

/-- An amount within the format can be told. -/
theorem exists_milliseconds (h : a.IsPlain) (hwithin : ¬ a.IsBeyond) : ∃ t, a.milliseconds = .ok t := by
  cases ht : a.milliseconds with
  | ok t => exact ⟨t, rfl⟩
  | error fault =>
      cases fault
      exact absurd ((milliseconds_eq_error_iff h.digits).mp ht) hwithin

/-- **The sentence that asks to wait for an amount** is a wait for the milliseconds that the amount denotes, exactly if
    the amount survives; with less than 53 bits it waits one more or less at most, and what is beyond the format is not
    read. -/
theorem parseStep_waitFor (h : a.IsPlain) :
    (a.IsBeyond → parseStep (String.ofList (waitFor a)) = .error .amountTooLarge) ∧
      (¬ a.IsBeyond → ∃ t : Int, parseStep (String.ofList (waitFor a)) = .ok
          { action := .wait, sentence := String.ofList (waitFor a), timeout := some t } ∧
        (t = a.denoted ↔ a.Survives) ∧ (a.denoted < twoTo 52 → t = a.roundedMilliseconds)) := by
  rw [parseStep_of_milliseconds h]
  refine ⟨fun hbeyond => ?_, fun hwithin => ?_⟩
  · rw [(milliseconds_eq_error_iff h.digits).mpr hbeyond]
    rfl
  · obtain ⟨t, ht⟩ := exists_milliseconds h hwithin
    refine ⟨t, by rw [ht]; rfl, ?_, fun hsmall => ?_⟩
    · rw [← milliseconds_eq_denoted_iff h hwithin, ht, Except.ok.injEq]
    · exact Except.ok.inj (ht.symm.trans (milliseconds_of_lt h hsmall))

/-- A second and a thousandth. -/
def shortSecond : WrittenAmount := { whole := ['1'], fraction := "001".toList, unit := "seconds".toList }

/-- **A wait that loses a millisecond.** -/
theorem parseStep_waitFor_shortSecond : shortSecond.IsPlain ∧ ¬ shortSecond.IsBeyond ∧ shortSecond.denoted = 1001 ∧
    parseStep "wait 1.001 seconds" =
      .ok { action := .wait, sentence := "wait 1.001 seconds", timeout := some 1000 } := by
  have hdigits : (shortSecond.whole ++ shortSecond.fraction).all isDigit = true := by decide +kernel
  have hplain : shortSecond.IsPlain :=
    ⟨by decide, fun c hc => List.all_eq_true.mp hdigits c hc, by decide, by decide +kernel⟩
  have hwithin : ¬ shortSecond.IsBeyond := by decide +kernel
  have hdenoted : shortSecond.denoted = 1001 := by decide +kernel
  have hsentence : String.ofList (waitFor shortSecond) = "wait 1.001 seconds" := by decide +kernel
  have hrounded : shortSecond.roundedMilliseconds = 1000 := by decide +kernel
  obtain ⟨t, hstep, -, hsmall⟩ := (parseStep_waitFor hplain).2 hwithin
  rw [hsmall (by rw [hdenoted]; decide), hrounded, hsentence] at hstep
  exact ⟨hplain, hwithin, hdenoted, hstep⟩

end StepRunner.Step
