import StepRunner.Json.Reader
import StepRunner.Json.Writer
import StepRunner.Proofs.Number.Shortest

/-!
# Numbers in JSON texts

A number that is written reads back as itself, where the text after it goes on as it does after a value
(`Ends`): `readNumber_decimalInt` for integers that are not too long, `readNumber_floatText` for floats.
-/

namespace StepRunner.Json

open Number Text

variable {negative : Bool} {ds places exponent rest : List Char} {n : Nat} {d : Char}

/-! ## 1. Spans of digits -/

/-- What may come after a value: a blank, a comma, or the end of what the value is part of. -/
def endMarks : List Char := [' ', '\t', '\n', '\r', ',', ']', '\x7d']

/-- Nothing comes after a value, or the text goes on as it may there. -/
def Ends (rest : List Char) : Prop := ∀ c ∈ rest.head?, c ∈ endMarks

theorem ends_nil : Ends [] := nofun

theorem ends_cons {c : Char} (h : c ∈ endMarks) : Ends (c :: rest) := by
  intro _ hc
  obtain rfl := Option.some.inj hc
  exact h

/-- The text does not go on with a digit. -/
def EndsDigits (rest : List Char) : Prop := ∀ c ∈ rest.head?, isAsciiDigit c = false

theorem endsDigits_cons {c : Char} (h : isAsciiDigit c = false) : EndsDigits (c :: rest) := by
  rintro _ ⟨⟩
  exact h

theorem Ends.digits (h : Ends rest) : EndsDigits rest := by
  have hmarks : (endMarks.all fun c => !isAsciiDigit c) = true := by decide
  intro c hc
  simpa using List.all_eq_true.mp hmarks c (h c hc)

/-- All characters are digits. -/
def Digits (ds : List Char) : Prop := ∀ c ∈ ds, isAsciiDigit c = true

theorem spanDigits_append (hds : Digits ds) (h : EndsDigits rest) :
    spanDigits (ds ++ rest) = (ds, rest) := by
  unfold spanDigits
  induction ds with
  | nil =>
      cases rest with
      | nil => rfl
      | cons c rest =>
          have hc := h c rfl
          simp [hc]
  | cons c ds ih =>
      have hc := hds c List.mem_cons_self
      have := ih fun x hx => hds x (List.mem_cons_of_mem _ hx)
      simp_all

theorem digits_decimal (n : Nat) : Digits (decimal n) := isAsciiDigit_of_mem_decimal

theorem digits_replicate (n : Nat) : Digits (List.replicate n '0') := by
  intro c hc
  rw [List.eq_of_mem_replicate hc]
  rfl

theorem digits_zero : Digits ['0'] := digits_replicate 1

theorem Digits.append (hds : Digits ds) (h : Digits places) : Digits (ds ++ places) :=
  List.forall_mem_append.mpr ⟨hds, h⟩

theorem digitsValue_append : digitsValue (ds ++ places) =
    digitsValue ds * tenTo places.length + digitsValue places := by
  unfold digitsValue
  rw [List.map_append, ofDigits_append, List.length_map]

theorem digitsValue_decimal (n : Nat) : digitsValue (decimal n) = n := ofDigits_decimal n

theorem digitsValue_replicate (n : Nat) : digitsValue (List.replicate n '0') = 0 := by
  unfold digitsValue
  rw [List.map_replicate]
  exact ofDigits_replicate n

theorem digitsValue_lt (hds : Digits ds) : digitsValue ds < tenTo ds.length := by
  have hlen : (ds.map fun c => c.toNat - 48).length = ds.length := List.length_map _
  rw [← hlen]
  refine ofDigits_lt fun d hd => ?_
  obtain ⟨c, hc, rfl⟩ := List.mem_map.mp hd
  have h := hds c hc
  simp only [isAsciiDigit, Bool.and_eq_true, decide_eq_true_eq, Char.le_def] at h
  have h9 : c.toNat ≤ 57 := h.2
  omega

/-! ## 2. The parts of a number -/

/-- The digits in front of a point: a zero alone, or no zero first. -/
structure Whole (ds : List Char) : Prop where
  digits : Digits ds
  ne_nil : ds ≠ []
  lead : ds = ['0'] ∨ ds.head? ≠ some '0'

theorem whole_decimal (n : Nat) : Whole (decimal n) := by
  refine ⟨digits_decimal n, decimal_ne_nil n, ?_⟩
  rcases Nat.eq_zero_or_pos n with rfl | h
  · exact .inl (decimal_of_lt (by decide))
  · exact .inr (head?_decimal h.ne')

/-- The sign of a number. -/
def sign (negative : Bool) : List Char := if negative then ['-'] else []

theorem splitSign_of_ne {c : Char} {cs : List Char} (h : c ≠ '-') :
    splitSign (c :: cs) = (false, c :: cs) := by
  unfold splitSign
  split
  · next heq => exact absurd (List.cons.inj heq).1 h
  · rfl

theorem splitWhole_of_ne {c : Char} {cs : List Char} (h : c ≠ '0') :
    splitWhole (c :: cs) = spanDigits (c :: cs) := by
  unfold splitWhole
  split
  · next heq => exact absurd (List.cons.inj heq).1 h
  · rfl

theorem ne_of_isAsciiDigit {c d : Char} (hc : isAsciiDigit c = true) (hd : isAsciiDigit d = false) :
    c ≠ d := by
  rintro rfl
  rw [hc] at hd
  cases hd

theorem splitWhole_append (hds : Whole ds) (h : EndsDigits rest) :
    splitWhole (ds ++ rest) = (ds, rest) := by
  obtain ⟨hdigits, hne, hlead⟩ := hds
  rcases hlead with rfl | hlead
  · rfl
  · obtain ⟨c, cs, rfl⟩ := List.exists_cons_of_ne_nil hne
    have hc : c ≠ '0' := fun hc => hlead (by rw [hc]; rfl)
    rw [List.cons_append, splitWhole_of_ne hc, ← List.cons_append, spanDigits_append hdigits h]

theorem splitSign_sign (hds : Whole ds) :
    splitSign (sign negative ++ ds ++ rest) = (negative, ds ++ rest) := by
  cases negative with
  | true => rfl
  | false =>
      obtain ⟨c, cs, rfl⟩ := List.exists_cons_of_ne_nil hds.ne_nil
      exact splitSign_of_ne (ne_of_isAsciiDigit (hds.digits c List.mem_cons_self) (by decide))

/-- A number is read by its parts. -/
theorem readNumber_sign (hds : Whole ds) (h : EndsDigits rest) :
    readNumber (sign negative ++ ds ++ rest) = afterWhole negative ds rest := by
  unfold readNumber
  rw [splitSign_sign hds]
  dsimp only
  rw [splitWhole_append hds h]
  dsimp only
  rw [if_neg (by simpa using hds.ne_nil)]

theorem fraction_point (hp : Digits places) (hne : places ≠ []) (h : EndsDigits rest) :
    fraction ('.' :: (places ++ rest)) = (places, rest) := by
  show (if (spanDigits (places ++ rest)).1.isEmpty then _ else spanDigits (places ++ rest)) = _
  rw [spanDigits_append hp h, if_neg (by simpa using hne)]

theorem fraction_ends (h : Ends rest) : fraction rest = ([], rest) := by
  unfold fraction
  split
  · exact absurd (h '.' rfl) (by decide)
  · rfl

theorem exponent?_ends (h : Ends rest) : exponent? rest = none := by
  cases rest with
  | nil => rfl
  | cons c rest =>
      have hmarks : (endMarks.all fun c => !(c == 'e' || c == 'E')) = true := by decide
      unfold exponent?
      exact if_neg (by simpa using List.all_eq_true.mp hmarks c (h c rfl))

/-- The letter of an exponent and its sign. -/
def exponentMark (negative : Bool) : List Char := ['e', if negative then '-' else '+']

theorem endsDigits_mark : EndsDigits (exponentMark negative ++ exponent ++ rest) :=
  endsDigits_cons rfl

theorem exponent?_mark (he : Digits exponent) (hne : exponent ≠ []) (h : EndsDigits rest) :
    exponent? (exponentMark negative ++ exponent ++ rest) =
      some (if negative then -(digitsValue exponent : Int) else digitsValue exponent, rest) := by
  have hspan := spanDigits_append he h
  have hempty : exponent.isEmpty = false := by simpa using hne
  cases negative with
  | false => simp [exponentMark, exponent?, hspan, hempty]
  | true => simp [exponentMark, exponent?, hspan, hempty]

/-! ## 3. Integers -/

theorem afterWhole_int (hlen : ds.length ≤ digitLimit) (h : Ends rest) :
    afterWhole negative ds rest =
      .ok (.int (if negative then -(digitsValue ds : Int) else digitsValue ds), rest) := by
  unfold afterWhole
  rw [fraction_ends h]
  simp only [exponent?_ends h]
  rw [List.isEmpty_nil, if_pos rfl, if_neg (Nat.not_lt.mpr hlen)]

/-- **An integer that is not too long** reads back. -/
theorem readNumber_decimalInt {n : Int} (hn : isTooLong n = false) (h : Ends rest) :
    readNumber (decimalInt n ++ rest) = .ok (.int n, rest) := by
  have hlen : (decimal n.natAbs).length ≤ digitLimit := by
    simpa [isTooLong] using hn
  have hread (negative : Bool) : readNumber (sign negative ++ decimal n.natAbs ++ rest) =
      .ok (.int (if negative then -(n.natAbs : Int) else n.natAbs), rest) := by
    rw [readNumber_sign (whole_decimal _) h.digits, afterWhole_int hlen h, digitsValue_decimal]
  cases n with
  | ofNat n => exact hread false
  | negSucc n => exact hread true

/-! ## 4. Floats -/

theorem afterWhole_point (hp : Digits places) (hne : places ≠ []) (h : Ends rest) :
    afterWhole negative ds ('.' :: (places ++ rest)) =
      .ok (.float (Binary64.ofDecimal negative (digitsValue (ds ++ places)) (ds ++ places).length
        (-places.length)), rest) := by
  unfold afterWhole
  rw [fraction_point hp hne h.digits]
  simp only [exponent?_ends h]
  rw [if_neg (by simpa using hne)]

theorem afterWhole_exponent {lead : Bool} (he : Digits exponent) (hne : exponent ≠ [])
    (h : Ends rest) (hfraction : fraction places = (ds, exponentMark lead ++ exponent ++ rest)) :
    afterWhole negative [d] places =
      .ok (.float (Binary64.ofDecimal negative (digitsValue (d :: ds)) (ds.length + 1)
        ((if lead then -(digitsValue exponent : Int) else digitsValue exponent) - ds.length)), rest) := by
  unfold afterWhole
  rw [hfraction]
  simp only [exponent?_mark he hne h.digits]
  rfl

section

open Binary64

variable {m p : Nat} {power : Int}

/-- A decimal with a point reads as the number that it rounds to. -/
theorem readNumber_point (hc : (finite negative m p).Canonical) (hm : m ≠ 0) (hds : Whole ds)
    (hp : Digits places) (hne : places ≠ [])
    (hr : roundsTo m p (digitsValue (ds ++ places)) (-places.length) = true) (h : Ends rest) :
    readNumber (sign negative ++ (ds ++ '.' :: places) ++ rest) =
      .ok (.float (.finite negative m p), rest) := by
  have hsplit : sign negative ++ (ds ++ '.' :: places) ++ rest =
      sign negative ++ ds ++ '.' :: (places ++ rest) := by simp
  rw [hsplit, readNumber_sign hds (endsDigits_cons rfl), afterWhole_point hp hne h,
    ofDecimal_of_roundsTo hc hm (digitsValue_lt (hds.digits.append hp)) hr]

/-- One digit in front of the point, or more of which the first is no zero. -/
theorem Digits.whole_take {w : Nat} (hds : Digits ds) (hne : ds ≠ []) (hw : w ≠ 0)
    (h : w = 1 ∨ ds.head? ≠ some '0') : Whole (ds.take w) := by
  obtain ⟨c, cs, rfl⟩ := List.exists_cons_of_ne_nil hne
  obtain ⟨w, rfl⟩ := Nat.exists_eq_succ_of_ne_zero hw
  refine ⟨fun x hx => hds x (List.mem_of_mem_take hx), by simp, ?_⟩
  by_cases hc : c = '0'
  · subst hc
    obtain rfl : w = 0 := by
      rcases h with h | h
      · omega
      · exact absurd rfl h
    exact .inl rfl
  · exact .inr fun h' => hc (Option.some.inj h')

theorem readNumber_positional (hc : (finite negative m p).Canonical) (hm : m ≠ 0)
    (hds : Digits ds) (hne : ds ≠ []) (hhead : ds.head? ≠ some '0')
    (hr : roundsTo m p (digitsValue ds) power = true) (h : Ends rest) :
    readNumber (sign negative ++ positional ds power ++ rest) =
      .ok (.float (.finite negative m p), rest) := by
  have hpos := List.length_pos_iff.mpr hne
  unfold positional
  split
  · next hp =>
      -- zeros behind the digits, and one behind the point
      obtain ⟨k, rfl⟩ := Int.eq_ofNat_of_zero_le hp
      have hwhole : Whole (ds ++ List.replicate k '0') := by
        refine ⟨hds.append (digits_replicate k), by simp [hne], .inr ?_⟩
        rwa [List.head?_append, List.head?_eq_some_head hne, Option.some_or,
          ← List.head?_eq_some_head]
      have hvalue : digitsValue (ds ++ List.replicate k '0' ++ ['0']) =
          digitsValue ds * tenTo (k + 1) := by
        rw [List.append_assoc, ← List.replicate_succ', digitsValue_append, digitsValue_replicate,
          List.length_replicate, Nat.add_zero]
      have hpower : -(['0'].length : Int) = (k : Int) - (k + 1 : Nat) := by
        rw [List.length_singleton]
        omega
      rw [Int.toNat_natCast]
      refine readNumber_point hc hm hwhole digits_zero (by decide) ?_ h
      rw [hvalue, hpower, roundsTo_shift]
      exact hr
  · next hp =>
      -- zeros in front of the digits, so that there is one before the point
      obtain ⟨q, rfl⟩ : ∃ q : Nat, power = -(q + 1 : Nat) := ⟨power.natAbs - 1, by omega⟩
      rw [Int.natAbs_neg, Int.natAbs_natCast]
      dsimp only
      have hlen : (List.replicate (q + 1 + 1 - ds.length) '0' ++ ds).length =
          max ds.length (q + 2) := by
        rw [List.length_append, List.length_replicate]
        omega
      have hwide : Digits (List.replicate (q + 1 + 1 - ds.length) '0' ++ ds) :=
        (digits_replicate _).append hds
      have hvalue : digitsValue (List.replicate (q + 1 + 1 - ds.length) '0' ++ ds) =
          digitsValue ds := by
        rw [digitsValue_append, digitsValue_replicate, Nat.zero_mul, Nat.zero_add]
      have hfirst : max ds.length (q + 2) - (q + 1) = 1 ∨
          (List.replicate (q + 1 + 1 - ds.length) '0' ++ ds).head? ≠ some '0' := by
        rcases Nat.lt_or_ge ds.length (q + 2) with hlt | hge
        · exact .inl (by omega)
        · rw [Nat.sub_eq_zero_of_le hge]
          exact .inr hhead
      rw [← hlen] at hfirst
      generalize List.replicate (q + 1 + 1 - ds.length) '0' ++ ds = wide at *
      have hplaces : (wide.drop (wide.length - (q + 1))).length = q + 1 := by
        rw [List.length_drop]
        omega
      refine readNumber_point hc hm
        (hwide.whole_take (by rintro rfl; rw [List.length_nil] at hlen; omega) (by omega) hfirst)
        (fun c hc => hwide c (List.mem_of_mem_drop hc)) (List.length_pos_iff.mp (by omega)) ?_ h
      rw [List.take_append_drop, hplaces, hvalue]
      exact hr

theorem digitsValue_padded (width n : Nat) : digitsValue (padded width n) = n := by
  unfold padded
  rw [digitsValue_append, digitsValue_replicate, Nat.zero_mul, Nat.zero_add, digitsValue_decimal]

theorem digits_padded (width n : Nat) : Digits (padded width n) :=
  (digits_replicate _).append (digits_decimal n)

theorem padded_ne_nil (width n : Nat) : padded width n ≠ [] := by
  unfold padded
  simp [decimal_ne_nil]

theorem readNumber_scientific (hc : (finite negative m p).Canonical) (hm : m ≠ 0)
    (hds : Digits ds) (hne : ds ≠ [])
    (hr : roundsTo m p (digitsValue ds) power = true) (h : Ends rest) :
    readNumber (sign negative ++ scientific ds (power + ds.length - 1) ++ rest) =
      .ok (.float (.finite negative m p), rest) := by
  obtain ⟨d, ds, rfl⟩ := List.exists_cons_of_ne_nil hne
  have hd : Whole [d] := hds.whole_take hne Nat.one_ne_zero (.inl rfl)
  have hlead : power + (d :: ds).length - 1 = power + ds.length := by
    rw [List.length_cons]
    omega
  rw [hlead]
  generalize hl : power + (ds.length : Int) = lead
  have hexponent : (if decide (lead < 0) then -(digitsValue (padded 2 lead.natAbs) : Int)
      else digitsValue (padded 2 lead.natAbs)) - ds.length = power := by
    rw [digitsValue_padded]
    by_cases hneg : lead < 0
    · rw [if_pos (decide_eq_true hneg)]
      omega
    · rw [if_neg (by simpa using hneg)]
      omega
  have hmark : exponentMark (decide (lead < 0)) = ['e', if lead < 0 then '-' else '+'] := by
    simp [exponentMark]
  have hread (text : List Char)
      (ht : fraction text = (ds, exponentMark (decide (lead < 0)) ++ padded 2 lead.natAbs ++ rest)) :
      afterWhole negative [d] text = .ok (.float (.finite negative m p), rest) := by
    rw [afterWhole_exponent (digits_padded 2 _) (padded_ne_nil 2 _) h ht, hexponent]
    exact congrArg (fun x => Except.ok (Json.float x, rest))
      (ofDecimal_of_roundsTo hc hm (digitsValue_lt hds) hr)
  cases ds with
  | nil =>
      have hsplit : sign negative ++ scientific [d] lead ++ rest =
          sign negative ++ [d] ++ (exponentMark (decide (lead < 0)) ++ padded 2 lead.natAbs ++ rest) := by
        simp [scientific, hmark]
      rw [hsplit, readNumber_sign hd endsDigits_mark]
      exact hread _ rfl
  | cons x ds =>
      have hsplit : sign negative ++ scientific (d :: x :: ds) lead ++ rest =
          sign negative ++ [d] ++ '.' :: (x :: ds ++
            (exponentMark (decide (lead < 0)) ++ padded 2 lead.natAbs ++ rest)) := by
        simp [scientific, hmark]
      rw [hsplit, readNumber_sign hd (endsDigits_cons rfl)]
      refine hread _ (fraction_point (fun c hc => hds c (List.mem_cons_of_mem _ hc))
        (List.cons_ne_nil x ds) endsDigits_mark)

/-- **A float** reads back. -/
theorem readNumber_text (hc : (finite negative m p).Canonical) (h : Ends rest) :
    readNumber ((finite negative m p).text ++ rest) = .ok (.float (.finite negative m p), rest) := by
  unfold text
  dsimp only
  split
  · next hm =>
      obtain rfl := hm
      obtain rfl : p = 0 := hc.2.1.resolve_left (by decide)
      have hwhole : Whole ['0'] := ⟨digits_zero, by decide, .inl rfl⟩
      have hsplit : (if negative = true then ['-'] else []) ++ "0.0".toList ++ rest =
          sign negative ++ ['0'] ++ ('.' :: (['0'] ++ rest)) := by simp [sign]
      rw [hsplit, readNumber_sign hwhole (endsDigits_cons rfl),
        afterWhole_point digits_zero (by decide) h]
      rfl
  · next hm =>
      obtain ⟨hne, hhead, hds, hr⟩ := shortest_spec (p := p) hc.1 hm
      have hsign : (if negative = true then ['-'] else []) = sign negative := rfl
      rw [hsign]
      split
      · exact readNumber_positional hc hm hds hne hhead hr h
      · exact readNumber_scientific hc hm hds hne hr h

end

end StepRunner.Json
