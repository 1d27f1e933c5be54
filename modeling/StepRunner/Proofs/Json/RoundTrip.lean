import StepRunner.Proofs.Json.Layout

/-!
# JSON values that are written and read again

A proper value with no integer that is too long is read as itself from each of its forms: `readText_written`,
which is `parse_indented` for the indented form and `parse_compact` for the form on one line. What is read
can be written again (`isWritable_of_readValue`), so that no other value reads as itself:
`parse_compact_iff`.

The text of a value is followed by more text, which goes on as it does after a value (`Ends`). The fuel
of the reader is counted by the text that is left: two for each character are enough.
-/

namespace StepRunner.Json

open Number Text

/-! ## 1. How a value begins -/

variable {cs rest more gap : List Char} {fuel : Nat} {w : Layout}

/-- The text begins with a character with which a value can begin. -/
def Begins (cs : List Char) : Prop :=
  ∃ c more, cs = c :: more ∧ isSpace c = false ∧ c ≠ ']' ∧ c ≠ '\uFEFF'

theorem Begins.append (h : Begins cs) : Begins (cs ++ more) := by
  obtain ⟨c, rest, rfl, hc⟩ := h
  exact ⟨c, rest ++ more, rfl, hc⟩

/-- The text does not go on with a blank. -/
def Solid (cs : List Char) : Prop := ∀ c ∈ cs.head?, isSpace c = false

theorem Begins.solid (h : Begins cs) : Solid cs := by
  obtain ⟨c, more, rfl, hc, -⟩ := h
  rintro _ ⟨⟩
  exact hc

theorem solid_cons {c : Char} (h : isSpace c = false) : Solid (c :: cs) := by
  rintro _ ⟨⟩
  exact h

theorem skipSpace_of_solid (h : Solid cs) : skipSpace cs = cs := by
  cases cs with
  | nil => rfl
  | cons c more => simp [skipSpace, h c rfl]

theorem skipSpace_gap (hg : ∀ c ∈ gap, isSpace c = true) (h : Solid cs) : skipSpace (gap ++ cs) = cs := by
  induction gap with
  | nil => exact skipSpace_of_solid h
  | cons c gap ih =>
      rw [List.forall_mem_cons] at hg
      have hskip : skipSpace (c :: gap ++ cs) = skipSpace (gap ++ cs) := by simp [skipSpace, hg.1]
      rw [hskip, ih hg.2]

/-! ## 2. Numbers -/

/-- The text begins with a digit. -/
def BeginsDigit (cs : List Char) : Prop := ∃ c more, cs = c :: more ∧ isAsciiDigit c = true

theorem beginsDigit_of_splitWhole (h : (splitWhole cs).1.isEmpty = false) : BeginsDigit cs := by
  cases cs with
  | nil => cases h
  | cons c more =>
      refine ⟨c, more, rfl, ?_⟩
      by_contra hc
      have h0 : c ≠ '0' := by
        rintro rfl
        exact hc rfl
      rw [splitWhole_of_ne h0] at h
      simp [spanDigits, hc] at h

/-- A number begins with a digit or with a minus sign before one. -/
theorem beginsDigit_of_readNumber {x : Json × List Char} (h : readNumber cs = .ok x) :
    BeginsDigit cs ∨ ∃ more, cs = '-' :: more ∧ BeginsDigit more := by
  have hwhole : BeginsDigit (splitSign cs).2 := by
    refine beginsDigit_of_splitWhole ?_
    by_contra hne
    unfold readNumber at h
    dsimp only at h
    rw [if_pos (by simpa using hne)] at h
    cases h
  unfold splitSign at hwhole
  split at hwhole
  · next more => exact .inr ⟨more, rfl, hwhole⟩
  · exact .inl hwhole

theorem begins_of_readNumber {x : Json × List Char} (h : readNumber cs = .ok x) : Begins cs := by
  rcases beginsDigit_of_readNumber h with ⟨c, more, rfl, hc⟩ | ⟨more, rfl, -⟩
  · refine ⟨c, more, rfl, ?_, ne_of_isAsciiDigit hc (by decide), ne_of_isAsciiDigit hc (by decide)⟩
    simp [isSpace, ne_of_isAsciiDigit hc (d := ' ') (by decide),
      ne_of_isAsciiDigit hc (d := '\t') (by decide), ne_of_isAsciiDigit hc (d := '\n') (by decide),
      ne_of_isAsciiDigit hc (d := '\r') (by decide)]
  · exact ⟨'-', more, rfl, by decide, by decide, by decide⟩

theorem after?_of_ne {c d : Char} {name : List Char} (h : d ≠ c) :
    after? (d :: name) (c :: more) = none := by
  rw [after?, if_neg h]

theorem begins_of_readNumber_append {x : Json × List Char} (h : readNumber (cs ++ []) = .ok x) :
    Begins cs := by
  rw [List.append_nil] at h
  exact begins_of_readNumber h

/-- No name is a number. -/
theorem readName?_of_readNumber {x : Json × List Char} (h : readNumber cs = .ok x) :
    readName? cs = none := by
  rcases beginsDigit_of_readNumber h with ⟨c, more, rfl, hc⟩ | ⟨_, rfl, c, more, rfl, hc⟩
  · have hnone (d : Char) (name : List Char) (hd : isAsciiDigit d = false) :
        after? (d :: name) (c :: more) = none := after?_of_ne (ne_of_isAsciiDigit hc hd).symm
    simp only [readName?, names, List.findSome?_eq_none_iff]
    simp only [List.forall_mem_cons, List.not_mem_nil, Option.map_eq_none_iff]
    exact ⟨hnone _ _ (by decide), hnone _ _ (by decide), hnone _ _ (by decide), hnone _ _ (by decide),
      hnone _ _ (by decide), hnone _ _ (by decide), nofun⟩
  · have hI : 'I' ≠ c := (ne_of_isAsciiDigit hc (by decide)).symm
    simp [readName?, names, after?, hI]

theorem readValue_of_readNumber {x : Json × List Char} (h : readNumber cs = .ok x) :
    readValue (fuel + 1) cs = .ok x := by
  have hname := readName?_of_readNumber h
  have hshape := beginsDigit_of_readNumber h
  unfold readValue
  split
  · rcases hshape with ⟨c, more, he, -⟩ | ⟨more, he, -⟩ <;> cases he
  · rcases hshape with ⟨c, more, he, hc⟩ | ⟨more, he, -⟩ <;> cases he
    cases hc
  · rcases hshape with ⟨c, more, he, hc⟩ | ⟨more, he, -⟩ <;> cases he
    cases hc
  · rcases hshape with ⟨c, more, he, hc⟩ | ⟨more, he, -⟩ <;> cases he
    cases hc
  · rw [hname]
    exact h

/-! ## 3. Values without parts -/

/-- The fields that are read up to one. -/
theorem set_of_not_mem {read : List (String × Json)} {key : String} {j : Json}
    (h : key ∉ read.map (·.1)) : set read key j = read ++ [(key, j)] := by
  induction read with
  | nil => rfl
  | cons f read ih =>
      rw [List.map_cons, List.mem_cons, not_or] at h
      rw [set, if_neg (Ne.symm h.1), ih h.2]
      rfl

theorem readValue_floatText {x : Binary64} (hx : x.Canonical) (h : Ends rest) :
    readValue (fuel + 1) (floatText x ++ rest) = .ok (.float x, rest) := by
  cases x with
  | nan => rfl
  | infinite negative => cases negative <;> rfl
  | finite negative m p => exact readValue_of_readNumber (readNumber_text hx h)

theorem readValue_string (s : String) (more : List Char) :
    readValue (fuel + 1) (stringWith stringChar s ++ more) = .ok (.str s, more) := by
  have hsplit : stringWith stringChar s ++ more =
      '"' :: (s.toList.flatMap stringChar ++ '"' :: more) := by simp [stringWith]
  rw [hsplit, readValue]
  simp only [readString_stringWith]

theorem begins_written {level : Nat} {j : Json} (hp : j.Proper) (hw : j.isWritable = true) :
    Begins (written w level j) := by
  cases j with
  | null => exact ⟨'n', _, rfl, by decide, by decide, by decide⟩
  | bool b =>
      cases b with
      | false => exact ⟨'f', _, rfl, by decide, by decide, by decide⟩
      | true => exact ⟨'t', _, rfl, by decide, by decide, by decide⟩
  | int n =>
      have hn : isTooLong n = false := by simpa [isWritable] using hw
      exact begins_of_readNumber_append (readNumber_decimalInt hn ends_nil)
  | float x =>
      cases x with
      | nan => exact ⟨'N', _, rfl, by decide, by decide, by decide⟩
      | infinite negative =>
          cases negative with
          | false => exact ⟨'I', _, rfl, by decide, by decide, by decide⟩
          | true => exact ⟨'-', _, rfl, by decide, by decide, by decide⟩
      | finite negative m p => exact begins_of_readNumber_append (readNumber_text hp ends_nil)
  | str s => exact ⟨'"', _, rfl, by decide, by decide, by decide⟩
  | arr items => cases items <;> exact ⟨'[', _, rfl, by decide, by decide, by decide⟩
  | obj fields => cases fields <;> exact ⟨'\x7b', _, rfl, by decide, by decide, by decide⟩

theorem begins_writtenItems {level : Nat} {j : Json} {items : List Json} (hp : j.Proper)
    (hw : j.isWritable = true) : Begins (writtenItems w level (j :: items)) := by
  cases items with
  | nil => exact begins_written hp hw
  | cons _ _ => exact ((begins_written hp hw).append).append

/-! ## 4. Lists and objects -/

theorem ends_gap {c : Char} (hg : ∀ c ∈ gap, isSpace c = true) (h : c ∈ endMarks) :
    Ends (gap ++ c :: cs) := by
  cases gap with
  | nil => exact ends_cons h
  | cons x gap =>
      have hx := hg x List.mem_cons_self
      refine ends_cons ?_
      simp only [isSpace, Bool.or_eq_true, beq_iff_eq] at hx
      simp only [endMarks, List.mem_cons]
      rcases hx with ((rfl | rfl) | rfl) | rfl <;> simp

theorem ends_comma : Ends (',' :: cs) := ends_cons (by decide)

/-- The last item is read, and the list is over. -/
theorem readItems_last {read : List Json} {j : Json} (hg : ∀ c ∈ gap, isSpace c = true)
    (h : readValue fuel cs = .ok (j, gap ++ ']' :: rest)) :
    readItems (fuel + 1) read cs = .ok (.arr (read.reverse ++ [j]), rest) := by
  rw [readItems, h]
  dsimp only
  rw [skipSpace_gap hg (solid_cons (by decide))]
  simp

/-- An item is read, and more follow it. -/
theorem readItems_more {read : List Json} {j : Json} (hg : ∀ c ∈ gap, isSpace c = true)
    (hs : Solid more) (h : readValue fuel cs = .ok (j, ',' :: gap ++ more)) :
    readItems (fuel + 1) read cs = readItems fuel (j :: read) more := by
  rw [readItems, h]
  dsimp only
  rw [List.cons_append, skipSpace_of_solid (solid_cons (by decide))]
  show readItems fuel (j :: read) (skipSpace (gap ++ more)) = _
  rw [skipSpace_gap hg hs]

/-- A key is read, with the colon behind it and the value. -/
theorem readFields_key {read : List (String × Json)} {k : String} {j : Json} {tail : List Char}
    (hs : Solid more) (h : readValue fuel more = .ok (j, tail)) :
    readFields (fuel + 1) read (stringWith stringChar k ++ ": ".toList ++ more) =
      match skipSpace tail with
      | '\x7d' :: rest => .ok (.obj (set read k j), rest)
      | ',' :: rest => readFields fuel (set read k j) (skipSpace rest)
      | rest => .error ⟨.expectingComma, rest.length⟩ := by
  have hsplit : stringWith stringChar k ++ ": ".toList ++ more =
      '"' :: (k.toList.flatMap stringChar ++ '"' :: (": ".toList ++ more)) := by simp [stringWith]
  have hcolon : skipSpace (": ".toList ++ more) = ':' :: ' ' :: more := rfl
  have hblank : skipSpace (' ' :: more) = more := skipSpace_of_solid hs
  have hstep := readFields.eq_def (fuel + 1) read
    ('"' :: (k.toList.flatMap stringChar ++ '"' :: (": ".toList ++ more)))
  simp only [readString_stringWith, hcolon, hblank, h] at hstep
  rw [hsplit]
  exact hstep

theorem readFields_last {read : List (String × Json)} {k : String} {j : Json}
    (hg : ∀ c ∈ gap, isSpace c = true) (hk : k ∉ read.map (·.1)) (hs : Solid more)
    (h : readValue fuel more = .ok (j, gap ++ '\x7d' :: rest)) :
    readFields (fuel + 1) read (stringWith stringChar k ++ ": ".toList ++ more) =
      .ok (.obj (read ++ [(k, j)]), rest) := by
  rw [readFields_key hs h, skipSpace_gap hg (solid_cons (by decide)), set_of_not_mem hk]
  rfl

theorem readFields_more {read : List (String × Json)} {k : String} {j : Json} {tail : List Char}
    (hg : ∀ c ∈ gap, isSpace c = true) (hk : k ∉ read.map (·.1)) (hs : Solid more) (ht : Solid tail)
    (h : readValue fuel more = .ok (j, ',' :: gap ++ tail)) :
    readFields (fuel + 1) read (stringWith stringChar k ++ ": ".toList ++ more) =
      readFields fuel (read ++ [(k, j)]) tail := by
  rw [readFields_key hs h, List.cons_append, skipSpace_of_solid (solid_cons (by decide))]
  show readFields fuel (set read k j) (skipSpace (gap ++ tail)) = _
  rw [skipSpace_gap hg ht, set_of_not_mem hk]

theorem readValue_list (hg : ∀ c ∈ gap, isSpace c = true) (h : Begins cs) :
    readValue (fuel + 1) ('[' :: (gap ++ cs)) = readItems fuel [] cs := by
  obtain ⟨c, more, rfl, hc, hbracket, -⟩ := h
  rw [readValue, skipSpace_gap hg (solid_cons hc)]
  split
  · next heq => exact absurd (List.cons.inj heq).1 hbracket
  · rfl

theorem readValue_object (hg : ∀ c ∈ gap, isSpace c = true) :
    readValue (fuel + 1) ('\x7b' :: (gap ++ '"' :: cs)) = readFields fuel [] ('"' :: cs) := by
  rw [readValue, skipSpace_gap hg (solid_cons (by decide))]
  rfl

theorem writtenFields_cons (w : Layout) (level : Nat) (f : String × Json) (fields : List (String × Json)) :
    ∃ cs, writtenFields w level (f :: fields) = '"' :: cs := by
  cases fields <;> exact ⟨_, rfl⟩

theorem solid_writtenFields {level : Nat} {f : String × Json} {fields : List (String × Json)} :
    Solid (writtenFields w level (f :: fields) ++ cs) := by
  obtain ⟨more, h⟩ := writtenFields_cons w level f fields
  rw [h]
  exact solid_cons (by decide)

/-! ## 5. All values -/

theorem not_mem_keys {read fields : List (String × Json)} {k : String} {j : Json}
    (h : ((read ++ (k, j) :: fields).map (·.1)).Nodup) : k ∉ read.map (·.1) := by
  rw [List.map_append, List.map_cons] at h
  exact fun hk => (List.nodup_append.mp h).2.2 k hk k List.mem_cons_self rfl

mutual

/-- **A value that is written** reads back. -/
theorem readValue_written : (j : Json) → j.Proper → j.isWritable = true → (level : Nat) →
    {fuel : Nat} → 2 * (written w level j).length + 1 ≤ fuel → {rest : List Char} → Ends rest →
    readValue fuel (written w level j ++ rest) = .ok (j, rest) := by
  intro j hp hw level fuel hf rest h
  obtain ⟨fuel, rfl⟩ := Nat.exists_eq_succ_of_ne_zero (Nat.ne_zero_of_lt hf)
  match j with
  | .null => rfl
  | .bool true => rfl
  | .bool false => rfl
  | .int n =>
      have hn : isTooLong n = false := by simpa [isWritable] using hw
      exact readValue_of_readNumber (readNumber_decimalInt hn h)
  | .float x => exact readValue_floatText hp h
  | .str s => exact readValue_string s rest
  | .arr [] => rfl
  | .arr (j :: items) =>
      have hbegins : Begins (writtenItems w (level + 1) (j :: items)) :=
        begins_writtenItems hp.1 (Bool.and_eq_true_iff.mp hw).1
      have hsplit : written w level (.arr (j :: items)) ++ rest = '[' :: (w.opened (level + 1) ++
          (writtenItems w (level + 1) (j :: items) ++ w.closed level ++ ']' :: rest)) := by
        simp [written]
      rw [hsplit, readValue_list (w.opened_blank _) hbegins.append.append]
      refine readItems_written (j :: items) (List.cons_ne_nil _ _) hp hw (level + 1) level [] ?_
      simp only [written, List.length_cons, List.length_append] at hf
      omega
  | .obj [] => rfl
  | .obj (f :: fields) =>
      obtain ⟨cs, hcs⟩ := writtenFields_cons w (level + 1) f fields
      have hsplit : written w level (.obj (f :: fields)) ++ rest = '\x7b' :: (w.opened (level + 1) ++
          (writtenFields w (level + 1) (f :: fields) ++ w.closed level ++ '\x7d' :: rest)) := by
        simp [written]
      have hread : readFields fuel [] (writtenFields w (level + 1) (f :: fields) ++ w.closed level ++
          '\x7d' :: rest) = .ok (.obj (f :: fields), rest) := by
        refine readFields_written (f :: fields) (List.cons_ne_nil _ _) hp.2 hw (level + 1) level []
          hp.1 ?_
        simp only [written, List.length_cons, List.length_append] at hf
        omega
      rw [hcs] at hsplit hread
      rw [hsplit]
      exact (readValue_object (w.opened_blank _)).trans hread

/-- The items of a list read back, up to its end. -/
theorem readItems_written : (items : List Json) → items ≠ [] → AreProper items →
    areWritable items = true → (level outer : Nat) → (read : List Json) → {fuel : Nat} →
    2 * (writtenItems w level items).length + 2 ≤ fuel → {rest : List Char} →
    readItems fuel read (writtenItems w level items ++ w.closed outer ++ ']' :: rest) =
      .ok (.arr (read.reverse ++ items), rest) := by
  intro items hne hp hw level outer read fuel hf rest
  obtain ⟨fuel, rfl⟩ := Nat.exists_eq_succ_of_ne_zero (Nat.ne_zero_of_lt hf)
  match items with
  | [j] =>
      have hj := (Bool.and_eq_true_iff.mp hw).1
      have hends : Ends (w.closed outer ++ ']' :: rest) := ends_gap (w.closed_blank outer) (by decide)
      simp only [writtenItems] at hf ⊢
      rw [List.append_assoc]
      exact readItems_last (w.closed_blank outer) (readValue_written j hp.1 hj level (by omega) hends)
  | j :: x :: items =>
      obtain ⟨hj, hrest⟩ := Bool.and_eq_true_iff.mp hw
      have hsplit : writtenItems w level (j :: x :: items) ++ w.closed outer ++ ']' :: rest =
          written w level j ++ (',' :: w.parted level ++
            (writtenItems w level (x :: items) ++ w.closed outer ++ ']' :: rest)) := by
        simp [writtenItems]
      have hbegins : Begins (writtenItems w level (x :: items)) :=
        begins_writtenItems hp.2.1 (Bool.and_eq_true_iff.mp hrest).1
      simp only [writtenItems, List.length_append, List.length_cons] at hf
      have hlen : 2 * (written w level j).length + 1 ≤ fuel := by omega
      rw [hsplit, readItems_more (w.parted_blank level) hbegins.append.append.solid
          (readValue_written j hp.1 hj level hlen ends_comma),
        readItems_written (x :: items) (List.cons_ne_nil _ _) hp.2 hrest level outer (j :: read)
          (by omega)]
      simp

/-- The fields of an object read back, up to its end. -/
theorem readFields_written : (fields : List (String × Json)) → fields ≠ [] →
    HaveProper fields → haveWritable fields = true → (level outer : Nat) →
    (read : List (String × Json)) → ((read ++ fields).map (·.1)).Nodup → {fuel : Nat} →
    2 * (writtenFields w level fields).length + 2 ≤ fuel → {rest : List Char} →
    readFields fuel read (writtenFields w level fields ++ w.closed outer ++ '\x7d' :: rest) =
      .ok (.obj (read ++ fields), rest) := by
  intro fields hne hp hw level outer read hnodup fuel hf rest
  obtain ⟨fuel, rfl⟩ := Nat.exists_eq_succ_of_ne_zero (Nat.ne_zero_of_lt hf)
  match fields with
  | [(k, j)] =>
      have hj := (Bool.and_eq_true_iff.mp hw).1
      have hends : Ends (w.closed outer ++ '\x7d' :: rest) := ends_gap (w.closed_blank outer) (by decide)
      simp only [writtenFields, List.length_append] at hf
      simp only [writtenFields]
      rw [List.append_assoc, List.append_assoc]
      exact readFields_last (w.closed_blank outer) (not_mem_keys hnodup)
        (begins_written hp.1 hj).append.solid (readValue_written j hp.1 hj level (by omega) hends)
  | (k, j) :: f :: fields =>
      obtain ⟨hj, hrest⟩ := Bool.and_eq_true_iff.mp hw
      have hsplit : writtenFields w level ((k, j) :: f :: fields) ++ w.closed outer ++ '\x7d' :: rest =
          stringWith stringChar k ++ ": ".toList ++ (written w level j ++ (',' :: w.parted level ++
            (writtenFields w level (f :: fields) ++ (w.closed outer ++ '\x7d' :: rest)))) := by
        simp [writtenFields]
      simp only [writtenFields, List.length_append, List.length_cons] at hf
      have hlen : 2 * (written w level j).length + 1 ≤ fuel := by omega
      rw [hsplit, readFields_more (w.parted_blank level) (not_mem_keys hnodup)
          (begins_written hp.1 hj).append.solid solid_writtenFields
          (readValue_written j hp.1 hj level hlen ends_comma), ← List.append_assoc,
        readFields_written (f :: fields) (List.cons_ne_nil _ _) hp.2 hrest level outer
          (read ++ [(k, j)]) (by simpa using hnodup) (by omega)]
      simp

end

/-- **A form of a value** denotes the value. -/
theorem readText_written {j : Json} (hp : j.Proper) (hw : j.isWritable = true) :
    readText (written w 0 j) = .ok j := by
  have hbegins : Begins (written w 0 j) := begins_written hp hw
  have hread : readValue (2 * (written w 0 j).length + 2) (written w 0 j ++ []) = .ok (j, []) :=
    readValue_written j hp hw 0 (by omega) ends_nil
  have hskip := skipSpace_of_solid hbegins.solid
  obtain ⟨c, more, hc, -, -, hmark⟩ := hbegins
  unfold readText
  split
  · next heq =>
      rw [hc] at heq
      exact absurd (List.cons.inj heq).1 hmark
  · rw [List.append_nil] at hread
    rw [hskip, hread]
    rfl

/-- **The indented form** of a value denotes the value. -/
theorem parse_indented {j : Json} (hp : j.Proper) (hw : j.isWritable = true) :
    parse j.indented = .ok j := by
  unfold parse indented
  rw [String.toList_ofList, ← written_lines, readText_written hp hw]

/-- **The form on one line** of a value denotes the value. -/
theorem parse_compact {j : Json} (hp : j.Proper) (hw : j.isWritable = true) :
    parse j.compact = .ok j := by
  unfold parse compact
  rw [String.toList_ofList, ← written_line 0, readText_written hp hw]

/-! ## 6. What is read can be written -/

theorem areWritable_eq_all (items : List Json) : areWritable items = items.all Json.isWritable := by
  induction items with
  | nil => rfl
  | cons j rest ih => rw [areWritable, ih, List.all_cons]

theorem haveWritable_set {read : List (String × Json)} {j : Json} (key : String)
    (hread : haveWritable read = true) (hj : j.isWritable = true) :
    haveWritable (set read key j) = true := by
  induction read with
  | nil => simp [set, haveWritable, hj]
  | cons f read ih =>
      obtain ⟨hf, hrest⟩ := Bool.and_eq_true_iff.mp hread
      unfold set
      split
      · simp [haveWritable, hj, hrest]
      · simp [haveWritable, hf, ih hrest]

/-- A number is not less than the power of ten that its digits make, but for one. -/
theorem length_decimal_le {n width : Nat} (hw : width ≠ 0) (h : n < tenTo width) :
    (decimal n).length ≤ width := by
  by_cases h0 : n = 0
  · subst h0
    rw [decimal_of_lt (by decide), List.length_singleton]
    omega
  · by_contra hlt
    have hlow := (decimal_bounds h0).1
    have hten := tenTo_le (show width ≤ (decimal n).length - 1 by omega)
    omega

/-- Digits that are as many as an integer may have are not too long, of either sign. -/
theorem isTooLong_digitsValue {ds : List Char} (hds : Digits ds) (hne : ds ≠ [])
    (hlen : ds.length ≤ digitLimit) (negative : Bool) :
    isTooLong (if negative then -(digitsValue ds : Int) else digitsValue ds) = false := by
  have habs : (if negative then -(digitsValue ds : Int) else digitsValue ds).natAbs = digitsValue ds := by
    split
    · rw [Int.natAbs_neg, Int.natAbs_natCast]
    · exact Int.natAbs_natCast _
  have hle := length_decimal_le (fun h => hne (List.eq_nil_of_length_eq_zero h)) (digitsValue_lt hds)
  unfold isTooLong
  rw [habs, decide_eq_false_iff_not]
  omega

theorem digits_spanDigits (cs : List Char) : Digits (spanDigits cs).1 := by
  intro c hc
  exact List.mem_takeWhile_imp hc

theorem digits_splitWhole (cs : List Char) : Digits (splitWhole cs).1 := by
  unfold splitWhole
  split
  · exact digits_zero
  · exact digits_spanDigits cs

theorem isWritable_of_readNumber {j : Json} (h : readNumber cs = .ok (j, rest)) :
    j.isWritable = true := by
  unfold readNumber at h
  dsimp only at h
  split at h
  · cases h
  · next hne =>
      have hdigits := digits_splitWhole (splitSign cs).2
      rw [List.isEmpty_iff] at hne
      generalize (splitWhole (splitSign cs).2).1 = whole at *
      unfold afterWhole at h
      dsimp only at h
      split at h
      · cases h
        rfl
      · split at h
        · split at h
          · cases h
          · next hlen =>
              cases h
              simp [isWritable, isTooLong_digitsValue hdigits hne (Nat.not_lt.mp hlen)]
        · cases h
          rfl

theorem isWritable_of_readName? {j : Json} (h : readName? cs = some (j, rest)) : j.isWritable = true := by
  have hnames : ∀ entry ∈ names, entry.2.isWritable = true := by decide
  obtain ⟨entry, hentry, hmap⟩ := List.exists_of_findSome?_eq_some h
  obtain ⟨more, -, hpair⟩ := Option.map_eq_some_iff.mp hmap
  cases hpair
  exact hnames entry hentry

mutual

/-- **A value that is read** has no integer that is too long. -/
theorem isWritable_of_readValue : (fuel : Nat) → {cs rest : List Char} → {j : Json} →
    readValue fuel cs = .ok (j, rest) → j.isWritable = true := by
  intro fuel cs rest j h
  match fuel with
  | 0 => cases h
  | fuel + 1 =>
      unfold readValue at h
      split at h
      · cases h
      · split at h
        · cases h
        · cases h
          rfl
      · split at h
        · cases h
          rfl
        · exact isWritable_of_readItems fuel rfl h
      · split at h
        · cases h
          rfl
        · exact isWritable_of_readFields fuel rfl h
      · split at h
        · next found hname =>
            cases h
            exact isWritable_of_readName? hname
        · exact isWritable_of_readNumber h

theorem isWritable_of_readItems : (fuel : Nat) → {cs rest : List Char} → {read : List Json} →
    {j : Json} → areWritable read = true → readItems fuel read cs = .ok (j, rest) →
    j.isWritable = true := by
  intro fuel cs rest read j hread h
  match fuel with
  | 0 => cases h
  | fuel + 1 =>
      unfold readItems at h
      split at h
      · cases h
      · next item more hitem =>
          have hitem := isWritable_of_readValue fuel hitem
          have hitems : areWritable (item :: read) = true := by simp [areWritable, hitem, hread]
          split at h
          · cases h
            rw [isWritable, areWritable_eq_all, List.all_reverse, ← areWritable_eq_all]
            exact hitems
          · exact isWritable_of_readItems fuel hitems h
          · cases h

theorem isWritable_of_readFields : (fuel : Nat) → {cs rest : List Char} →
    {read : List (String × Json)} → {j : Json} → haveWritable read = true →
    readFields fuel read cs = .ok (j, rest) → j.isWritable = true := by
  intro fuel cs rest read j hread h
  match fuel with
  | 0 => cases h
  | fuel + 1 =>
      unfold readFields at h
      split at h
      · split at h
        · cases h
        · next key _ _ =>
            split at h
            · split at h
              · cases h
              · next value more hvalue =>
                  have hfields := haveWritable_set key hread (isWritable_of_readValue fuel hvalue)
                  split at h
                  · cases h
                    exact hfields
                  · exact isWritable_of_readFields fuel hfields h
                  · cases h
            · cases h
      · cases h

end

theorem isWritable_of_parse {text : String} {j : Json} (h : parse text = .ok j) : j.isWritable = true := by
  unfold parse readText at h
  split at h
  · next value hread =>
      cases h
      split at hread
      · cases hread
      · split at hread
        · cases hread
        · next more hvalue =>
            have hj := isWritable_of_readValue _ hvalue
            split at hread
            · cases hread
              exact hj
            · cases hread
  · cases h

/-- **The form on one line** of a proper value denotes the value exactly if no integer of it is too long. -/
theorem parse_compact_iff {j : Json} (hp : j.Proper) :
    parse j.compact = .ok j ↔ j.isWritable = true :=
  ⟨isWritable_of_parse, parse_compact hp⟩

end StepRunner.Json
