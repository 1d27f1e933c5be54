import StepRunner.Proofs.Files.Room
import StepRunner.Proofs.Json.Numerals
import StepRunner.Proofs.Number.Binary64
import StepRunner.Proofs.Report.Rows

/-!
# How the rows of a report read

A table row is read again: a bar ends a cell unless an open backslash stands before it, and a backslash is
open unless an open one stands before it.

* `readCells`: the cells of a row;
* `BarBehind`: a bar behind some number of backslashes, on which it depends whether a row is cut there
  (`bars_eq_zero_iff_barBehind`), and whether it is cut there once bars are escaped (`bars_escaped`);
* `wellFormed_iff_fits`: a row reads as it was put together if every cell fits on its own;
* `row_wellFormed_iff`: which rows of a report are single lines with a cell for every column. A case id
  is written as it is; other texts are escaped, but not the backslashes before their bars.
-/

namespace StepRunner

open Number Text

namespace Report

variable {run : Run} {now : Instant} {c : TestCase} {report : Report} {row : Row} {g : Group}
  {cs xs ys : List Char} {cells : List String} {id s : String} {isOpen behind : Bool}

/-! ## 1. Reading a row -/

/-- A backslash is open at the end of a text, where one was open before it or not. -/
def openAfter (isOpen : Bool) (cs : List Char) : Bool :=
  cs.foldl (fun isOpen ch => ch == '\\' && !isOpen) isOpen

/-- The parts between the bars that no open backslash stands before. -/
def partsFrom (isOpen : Bool) : List Char → List (List Char)
  | [] => [[]]
  | ch :: rest =>
    let parts := partsFrom (ch == '\\' && !isOpen) rest
    if ch = '|' ∧ isOpen = false then [] :: parts
    else (ch :: parts.headD []) :: parts.tail

/-- The cells of a row: its parts, without the first and the last one where they are blank. -/
def readCells (row : List Char) : List (List Char) :=
  let parts := partsFrom false row
  let inner := if allBlank (parts.headD []) then parts.tail else parts
  if allBlank (inner.getLastD []) then inner.dropLast else inner

/-- A row of three cells, one of them with a bar of its own. -/
example : readCells "| a | b\\|c |  |".toList = [" a ".toList, " b\\|c ".toList, "  ".toList] := by
  decide

/-- A character that ends a line. -/
def isLineBreak (ch : Char) : Bool :=
  let n := ch.toNat
  (10 ≤ n && n ≤ 13) || (28 ≤ n && n ≤ 30) || n == 0x85 || n == 0x2028 || n == 0x2029

/-- How many columns the table of a group has. -/
def columns (g : Group) : Nat := (readCells ((tableHead g).headD "").toList).length

/-- The row is a single line that has a cell for every column. -/
structure Row.WellFormed (row : Row) : Prop where
  line : ∀ ch ∈ row.text.toList, isLineBreak ch = false
  aligned : (readCells row.text.toList).length = columns row.group

/-! ## 2. Bars -/

/-- How many bars there are that an open backslash stands before, or that none stands before. -/
def bars (behind isOpen : Bool) : List Char → Nat
  | [] => 0
  | ch :: rest =>
    bars behind (ch == '\\' && !isOpen) rest + if ch = '|' ∧ isOpen = behind then 1 else 0

theorem openAfter_append : openAfter isOpen (xs ++ ys) = openAfter (openAfter isOpen xs) ys :=
  List.foldl_append

theorem openAfter_concat (ch : Char) :
    openAfter isOpen (xs ++ [ch]) = (ch == '\\' && !openAfter isOpen xs) := openAfter_append

theorem bars_append : bars behind isOpen (xs ++ ys) =
    bars behind isOpen xs + bars behind (openAfter isOpen xs) ys := by
  induction xs generalizing isOpen with
  | nil => exact (Nat.zero_add _).symm
  | cons ch xs ih =>
      rw [List.cons_append, bars, bars, ih]
      exact Nat.add_right_comm ..

theorem partsFrom_ne_nil : partsFrom isOpen cs ≠ [] := by
  unfold partsFrom
  split
  · nofun
  · dsimp only
    split <;> nofun

theorem length_partsFrom : (partsFrom isOpen cs).length = bars false isOpen cs + 1 := by
  induction cs generalizing isOpen with
  | nil => rfl
  | cons ch cs ih =>
      rw [partsFrom, bars]
      split
      · rw [List.length_cons, ih]
      · rw [List.length_cons, List.length_tail, ih]
        rfl

/-- A bar at the end of a text, where no backslash is open, ends its last part. -/
theorem partsFrom_concat_bar (h : openAfter isOpen cs = false) :
    partsFrom isOpen (cs ++ ['|']) = partsFrom isOpen cs ++ [[]] := by
  induction cs generalizing isOpen with
  | nil =>
      obtain rfl : isOpen = false := h
      rfl
  | cons ch cs ih =>
      rw [List.cons_append, partsFrom, partsFrom, ih h]
      obtain ⟨part, parts, e⟩ := List.exists_cons_of_ne_nil
        (@partsFrom_ne_nil cs (ch == '\\' && !isOpen))
      rw [e]
      split <;> rfl

/-- **The cells between two bars**, behind the last of which no backslash is open. -/
theorem length_readCells (h : openAfter false cs = false) :
    (readCells ('|' :: cs ++ ['|'])).length = bars false false cs + 1 := by
  have hparts : partsFrom false ('|' :: cs ++ ['|']) = [] :: (partsFrom false cs ++ [[]]) := by
    rw [List.cons_append, partsFrom]
    exact congrArg _ (partsFrom_concat_bar h)
  have hblank : allBlank [] = true := rfl
  unfold readCells
  simp only [hparts, List.headD_cons, List.tail_cons, hblank, if_true, List.getLastD_concat,
    List.dropLast_concat, length_partsFrom]

/-- **Where bars are**: each splits the text into what is before it and what is behind it. -/
theorem bars_eq_zero_iff : bars behind isOpen cs = 0 ↔
    ∀ us vs, cs = us ++ '|' :: vs → openAfter isOpen us ≠ behind := by
  constructor
  · intro h us vs e hopen
    rw [e, bars_append, bars, if_pos ⟨rfl, hopen⟩] at h
    omega
  · intro h
    induction cs generalizing isOpen with
    | nil => rfl
    | cons ch cs ih =>
        have hrest := @ih (ch == '\\' && !isOpen) fun us vs e =>
          h (ch :: us) vs (by rw [e, List.cons_append])
        rw [bars, hrest, if_neg]
        intro ⟨hch, hopen⟩
        exact h [] cs (by rw [hch, List.nil_append]) hopen

theorem bars_of_not_mem (h : '|' ∉ cs) : bars behind isOpen cs = 0 :=
  bars_eq_zero_iff.mpr fun us _ e => absurd (e ▸ List.mem_append_right us List.mem_cons_self) h

/-- **Escaping** the bars turns those behind an open backslash into bars behind none, and the other way. -/
theorem bars_escaped : bars false isOpen (replaceChar '|' ['\\', '|'] cs) = bars true isOpen cs := by
  induction cs generalizing isOpen with
  | nil => rfl
  | cons ch cs ih =>
      unfold replaceChar at ih ⊢
      rw [List.flatMap_cons, bars]
      by_cases hch : ch = '|'
      · subst hch
        rw [if_pos rfl, List.cons_append, List.cons_append, List.nil_append, bars, bars]
        cases isOpen <;> simp [ih]
      · rw [if_neg hch, List.cons_append, List.nil_append, bars, ih]
        simp [hch]

/-! ## 3. Runs of backslashes -/

/-- A bar stands in the text right behind so many backslashes. -/
def BarBehind (n : Nat) (cs : List Char) : Prop :=
  ∃ us vs, cs = us ++ List.replicate n '\\' ++ '|' :: vs ∧ us.getLast? ≠ some '\\'

/-- Every text ends with some number of backslashes. -/
theorem exists_backslashes (cs : List Char) :
    ∃ us n, cs = us ++ List.replicate n '\\' ∧ us.getLast? ≠ some '\\' := by
  induction cs using List.reverseRecOn with
  | nil => exact ⟨[], 0, rfl, nofun⟩
  | append_singleton cs ch ih =>
      by_cases hch : ch = '\\'
      · obtain ⟨us, n, rfl, hus⟩ := ih
        exact ⟨us, n + 1, by rw [hch, List.replicate_succ', List.append_assoc], hus⟩
      · exact ⟨cs ++ [ch], 0, (List.append_nil _).symm, by simp [hch]⟩

/-- Of a run of backslashes every other one is open. -/
theorem openAfter_backslashes (n : Nat) (h : xs.getLast? ≠ some '\\') :
    openAfter false (xs ++ List.replicate n '\\') = decide (n % 2 = 1) := by
  induction n with
  | zero =>
      rw [List.replicate_zero, List.append_nil]
      cases xs using List.reverseRecOn with
      | nil => rfl
      | append_singleton xs ch =>
          have hch : ch ≠ '\\' := by simpa using h
          rw [openAfter_concat, beq_false_of_ne hch]
          rfl
  | succ n ih =>
      rw [List.replicate_succ', ← List.append_assoc, openAfter_concat, ih, beq_self_eq_true, Bool.true_and,
        Bool.eq_iff_iff]
      simp
      omega

/-- **Bars and backslashes**: an open backslash stands before a bar if their number is odd. -/
theorem bars_eq_zero_iff_barBehind : bars behind false cs = 0 ↔
    ∀ n, BarBehind n cs → decide (n % 2 = 1) ≠ behind := by
  rw [bars_eq_zero_iff]
  constructor
  · intro h n ⟨us, _, e, hus⟩
    rw [← openAfter_backslashes n hus]
    exact h _ _ e
  · intro h us vs e
    obtain ⟨ws, n, rfl, hws⟩ := exists_backslashes us
    rw [openAfter_backslashes n hws]
    exact h n ⟨ws, vs, e, hws⟩

/-! ## 4. Rows put together -/

/-- A text that fits into one cell: no line ends in it, and it is not cut by a bar. -/
structure Fits (cs : List Char) : Prop where
  line : ∀ ch ∈ cs, isLineBreak ch = false
  whole : bars false false cs = 0

theorem toList_rowOf (cells : List String) : (rowOf cells).toList =
    '|' :: (' ' :: " | ".toList.intercalate (cells.map String.toList) ++ [' ']) ++ ['|'] := by
  rw [rowOf, String.toList_append, String.toList_append, String.toList_intercalate]
  simp

/-- The cells of a row, one after the other. -/
theorem bars_intercalate {texts : List (List Char)} (hne : texts ≠ []) :
    bars false false (" | ".toList.intercalate texts) + 1 =
      (texts.map (bars false false)).sum + texts.length := by
  induction texts with
  | nil => exact absurd rfl hne
  | cons x texts ih =>
      cases texts with
      | nil => simp
      | cons y texts =>
          have hsep : bars false (openAfter false x) " | ".toList = 1 := by
            cases openAfter false x <;> rfl
          have hopen : openAfter false (x ++ " | ".toList) = false := by
            rw [openAfter_append]
            cases openAfter false x <;> rfl
          rw [List.intercalate_cons_cons, bars_append, bars_append, hsep, hopen, List.map_cons, List.sum_cons,
            List.length_cons]
          have := ih (List.cons_ne_nil y texts)
          omega

theorem mem_intercalate {texts : List (List Char)} {sep : List Char} {ch : Char}
    (h : ch ∈ sep.intercalate texts) : ch ∈ sep ∨ ∃ x ∈ texts, ch ∈ x := by
  induction texts with
  | nil => cases h
  | cons x texts ih =>
      cases texts with
      | nil =>
          rw [List.intercalate_singleton] at h
          exact .inr ⟨x, List.mem_cons_self, h⟩
      | cons y texts =>
          rw [List.intercalate_cons_cons] at h
          rcases List.mem_append.mp h with h | h
          · rcases List.mem_append.mp h with h | h
            · exact .inr ⟨x, List.mem_cons_self, h⟩
            · exact .inl h
          · exact (ih h).imp_right fun ⟨x', hx', h⟩ => ⟨x', List.mem_cons_of_mem _ hx', h⟩

theorem mem_intercalate_of_mem {texts : List (List Char)} {x : List Char} {ch : Char} (sep : List Char)
    (hx : x ∈ texts) (h : ch ∈ x) : ch ∈ sep.intercalate texts := by
  induction texts with
  | nil => cases hx
  | cons y texts ih =>
      cases texts with
      | nil =>
          rw [List.intercalate_singleton, ← List.mem_singleton.mp hx]
          exact h
      | cons z texts =>
          rw [List.intercalate_cons_cons]
          rcases List.mem_cons.mp hx with rfl | hx
          · exact List.mem_append_left _ (List.mem_append_left _ h)
          · exact List.mem_append_right _ (ih hx)

/-- **A row reads as it was put together** if every cell fits on its own. -/
theorem wellFormed_iff_fits (hne : cells ≠ []) : ((∀ ch ∈ (rowOf cells).toList, isLineBreak ch = false) ∧
      (readCells (rowOf cells).toList).length = cells.length) ↔ ∀ s ∈ cells, Fits s.toList := by
  have hopen : openAfter false (' ' :: " | ".toList.intercalate (cells.map String.toList) ++ [' ']) = false := by
    rw [openAfter_concat]
    rfl
  have hlength : (readCells (rowOf cells).toList).length =
      ((cells.map String.toList).map (bars false false)).sum + cells.length := by
    have hbars := @bars_intercalate (cells.map String.toList) (mt List.map_eq_nil_iff.mp hne)
    rw [toList_rowOf, length_readCells hopen, List.cons_append, bars, bars_append, @bars_of_not_mem [' '] _ _
      (by decide), if_neg (by decide)]
    rw [List.length_map] at hbars
    exact hbars
  have hlines : (∀ ch ∈ (rowOf cells).toList, isLineBreak ch = false) ↔
      ∀ s ∈ cells, ∀ ch ∈ s.toList, isLineBreak ch = false := by
    rw [toList_rowOf]
    constructor
    · intro h s hs ch hch
      have hin := mem_intercalate_of_mem " | ".toList (List.mem_map_of_mem (f := String.toList) hs) hch
      exact h ch (List.mem_append_left _ (List.mem_cons_of_mem _ (List.mem_append_left _
        (List.mem_cons_of_mem _ hin))))
    · intro h ch hch
      have hsep : ∀ ch ∈ " | ".toList, isLineBreak ch = false := by simp [isLineBreak]
      simp only [List.cons_append, List.mem_cons, List.mem_append, List.not_mem_nil, or_false] at hch
      rcases hch with rfl | rfl | (hch | rfl) | rfl
      · rfl
      · rfl
      · rcases mem_intercalate hch with hch | ⟨x, hx, hch⟩
        · exact hsep ch hch
        · obtain ⟨s, hs, rfl⟩ := List.mem_map.mp hx
          exact h s hs ch hch
      · rfl
      · rfl
  rw [hlength, hlines, Nat.add_eq_right, List.sum_eq_zero_iff_forall_eq_nat]
  simp only [List.mem_map, forall_exists_index, and_imp, forall_apply_eq_imp_iff₂]
  exact ⟨fun h s hs => ⟨h.1 s hs, h.2 s hs⟩, fun h => ⟨fun s hs => (h s hs).line, fun s hs => (h s hs).whole⟩⟩

/-! ## 5. What a report writes into its cells -/

theorem isBlank_of_isLineBreak {ch : Char} (h : isLineBreak ch = true) : isBlank ch = true ∧ ch ≠ ' ' := by
  constructor
  · unfold isBlank
    unfold isLineBreak at h
    simp at h ⊢
    omega
  · rintro rfl
    cases h

/-- A text of plain characters fits. -/
theorem fits_of_plain (h : ∀ ch ∈ cs, ch ≠ '|' ∧ isLineBreak ch = false) : Fits cs :=
  ⟨fun ch hch => (h ch hch).2, bars_of_not_mem fun hbar => (h _ hbar).1 rfl⟩

/-- The characters of file names are plain. -/
theorem plain_of_isNameChar {ch : Char} (h : isNameChar ch = true) : ch ≠ '|' ∧ isLineBreak ch = false := by
  constructor
  · rintro rfl
    cases h
  · rw [← Bool.not_eq_true]
    intro hbreak
    have hbreaks : ([10, 11, 12, 13, 28, 29, 30, 0x85, 0x2028, 0x2029].all fun n =>
        !isNameChar (Char.ofNat n)) = true := by decide +kernel
    have hmem : ch.toNat ∈ [10, 11, 12, 13, 28, 29, 30, 0x85, 0x2028, 0x2029] := by
      unfold isLineBreak at hbreak
      simp at hbreak ⊢
      omega
    have hnot := List.all_eq_true.mp hbreaks _ hmem
    rw [Char.ofNat_toNat, h] at hnot
    cases hnot

theorem isNameChar_of_isAsciiDigit {ch : Char} (h : isAsciiDigit ch = true) : isNameChar ch = true := by
  unfold isAsciiDigit at h
  simp only [Bool.and_eq_true, decide_eq_true_eq] at h
  have hle : 48 ≤ ch.toNat ∧ ch.toNat ≤ 57 := h
  have hdigit : ch.isDigit = true := by
    simp only [Char.isDigit, Bool.and_eq_true, decide_eq_true_eq]
    exact h
  have halnum : ch.isAlphanum = true := by rw [Char.isAlphanum, hdigit, Bool.or_true]
  unfold isNameChar isWord isAsciiWord
  rw [if_pos (by omega), halnum]
  rfl

theorem isNameChar_fixed (places : Nat) (x : Binary64) : ∀ ch ∈ x.fixed places, isNameChar ch = true := by
  cases x with
  | nan => exact (List.all_eq_true.mp (by decide) : ∀ ch ∈ "nan".toList, isNameChar ch = true)
  | infinite negative =>
      have hinf : ∀ ch ∈ "inf".toList, isNameChar ch = true := List.all_eq_true.mp (by decide)
      cases negative with
      | true => exact List.forall_mem_cons.mpr ⟨by decide, hinf⟩
      | false => exact hinf
  | finite negative m p =>
      have hdigits := Json.digits_padded (places + 1)
        (Binary64.roundHalfEven (Binary64.units m p * tenTo places) Binary64.unitsPerOne)
      unfold Binary64.fixed
      dsimp only
      generalize padded (places + 1) _ = ds at hdigits ⊢
      have hds (ch : Char) (hch : ch ∈ ds) : isNameChar ch = true := isNameChar_of_isAsciiDigit (hdigits ch hch)
      intro ch hch
      rcases List.mem_append.mp hch with hch | hch
      · rcases List.mem_append.mp hch with hch | hch
        · cases negative with
          | true =>
              rw [List.mem_singleton.mp hch]
              rfl
          | false => cases hch
        · exact hds ch (List.mem_of_mem_take hch)
      · split at hch
        · cases hch
        · rcases List.mem_cons.mp hch with rfl | hch
          · rfl
          · exact hds ch (List.mem_of_mem_drop hch)

theorem fits_secondsText {n : Int} {time : String} (h : secondsText n = .ok time) : Fits time.toList := by
  unfold secondsText at h
  cases hq : quotient n 1000 with
  | error f =>
      rw [hq] at h
      cases h
  | ok x =>
      rw [hq] at h
      obtain rfl := Except.ok.inj h
      refine fits_of_plain fun ch hch => plain_of_isNameChar ?_
      rw [String.toList_append, fixedText, String.toList_ofList] at hch
      rcases List.mem_append.mp hch with hch | hch
      · exact isNameChar_fixed 2 x ch hch
      · rw [List.mem_singleton.mp hch]
        rfl

theorem fits_link (c : TestCase) (r : CaseResult) : Fits (link (imageFile? c r)).toList := by
  have hopening : ∀ ch ∈ "[png](screenshots/".toList, ch ≠ '|' ∧ isLineBreak ch = false := by simp [isLineBreak]
  have hclosing : ∀ ch ∈ ")".toList, ch ≠ '|' ∧ isLineBreak ch = false := by simp [isLineBreak]
  have hnone : ∀ ch ∈ "N/A".toList, ch ≠ '|' ∧ isLineBreak ch = false := by simp [isLineBreak]
  cases himage : imageFile? c r with
  | none =>
      show Fits "N/A".toList
      exact fits_of_plain hnone
  | some image =>
      obtain ⟨bytes, -, rfl⟩ := Option.map_eq_some_iff.mp himage
      show Fits ("[png](screenshots/" ++ fileName c.id ++ ")").toList
      rw [String.toList_append, String.toList_append]
      refine fits_of_plain fun ch hch => ?_
      rcases List.mem_append.mp hch with hch | hch
      · rcases List.mem_append.mp hch with hch | hch
        · exact hopening ch hch
        · exact plain_of_isNameChar (isNameChar_fileName c.id ch hch)
      · exact hclosing ch hch

/-- An id fits if no line ends in it, and its bars are escaped in it. -/
theorem fits_idCell_iff : Fits (idCell id).toList ↔ (∀ ch ∈ id.toList, isLineBreak ch = false) ∧
    ∀ n, BarBehind n id.toList → n % 2 = 1 := by
  have hlist : (idCell id).toList = '\x60' :: (id.toList ++ ['\x60']) := by
    rw [idCell, String.toList_append, String.toList_append]
    rfl
  have hbars : bars false false (idCell id).toList = bars false false id.toList := by
    rw [hlist, bars, bars_append, @bars_of_not_mem ['\x60'] _ _ (by decide), if_neg (by decide)]
    rfl
  have hlines : (∀ ch ∈ (idCell id).toList, isLineBreak ch = false) ↔ ∀ ch ∈ id.toList, isLineBreak ch = false := by
    rw [hlist, List.forall_mem_cons, List.forall_mem_append, List.forall_mem_singleton]
    exact ⟨fun h => h.2.1, fun h => ⟨rfl, h, rfl⟩⟩
  have hodd : bars false false id.toList = 0 ↔ ∀ n, BarBehind n id.toList → n % 2 = 1 := by
    rw [bars_eq_zero_iff_barBehind]
    simp
  rw [← hlines, ← hodd, ← hbars]
  exact ⟨fun h => ⟨h.line, h.whole⟩, fun h => ⟨h.1, h.2⟩⟩

theorem isBlank_wordsFrom {word : List Char} (h : ∀ ch ∈ word, isBlank ch = false) (cs : List Char) :
    ∀ w ∈ wordsFrom word cs, ∀ ch ∈ w, isBlank ch = false := by
  have hword : ∀ ch ∈ word.reverse, isBlank ch = false := fun ch hch => h ch (List.mem_reverse.mp hch)
  induction cs generalizing word with
  | nil =>
      unfold wordsFrom
      split
      · exact nofun
      · exact List.forall_mem_singleton.mpr hword
  | cons ch cs ih =>
      unfold wordsFrom
      split
      · have hrest := ih (List.forall_mem_nil _) (List.forall_mem_nil _)
        split
        · exact hrest
        · exact List.forall_mem_cons.mpr ⟨hword, hrest⟩
      · next hch =>
          have hcons : ∀ ch' ∈ ch :: word, isBlank ch' = false :=
            List.forall_mem_cons.mpr ⟨Bool.eq_false_iff.mpr hch, h⟩
          exact ih hcons fun ch' hch' => hcons ch' (List.mem_reverse.mp hch')

/-- Blanks are made single spaces, so no line ends. -/
theorem isLineBreak_squeeze (cs : List Char) : ∀ ch ∈ squeeze cs, isLineBreak ch = false := by
  intro ch hch
  rw [← Bool.not_eq_true]
  intro hbreak
  obtain ⟨hblank, hspace⟩ := isBlank_of_isLineBreak hbreak
  rw [squeeze, Files.mem_joinWith (by simpa using hspace)] at hch
  obtain ⟨w, hw, hch⟩ := hch
  rw [isBlank_wordsFrom (List.forall_mem_nil _) cs w hw ch hch] at hblank
  cases hblank

/-- A text fits, once its bars are escaped, if no open backslash stood before them. -/
theorem fits_cell_iff : Fits (cell (some s)).toList ↔ ∀ n, BarBehind n (squeeze s.toList) → n % 2 = 0 := by
  have heven : bars true false (squeeze s.toList) = 0 ↔ ∀ n, BarBehind n (squeeze s.toList) → n % 2 = 0 := by
    rw [bars_eq_zero_iff_barBehind]
    simp
  rw [← heven]
  by_cases hempty : s = ""
  · subst hempty
    have hnone : ∀ ch ∈ "N/A".toList, ch ≠ '|' ∧ isLineBreak ch = false := by simp [isLineBreak]
    rw [cell, if_pos rfl]
    exact iff_of_true (fits_of_plain hnone) rfl
  · rw [cell, if_neg hempty, String.toList_ofList]
    refine ⟨fun h => bars_escaped.symm.trans h.whole, fun h => ⟨fun ch hch => ?_, bars_escaped.trans h⟩⟩
    obtain ⟨ch', hch', hch⟩ := List.mem_flatMap.mp hch
    split at hch
    · rcases List.mem_pair.mp hch with rfl | rfl <;> rfl
    · rw [List.mem_singleton.mp hch]
      exact isLineBreak_squeeze _ ch' hch'

/-! ## 6. The rows of a report -/

/-- The texts of a case that its row shows escaped: its title, and what its result says. -/
def shownTexts (run : Run) (c : TestCase) : List String :=
  c.title ::
    match run.caseResults.result? c.id with
    | none => []
    | some r => if r.passed then r.message.toList else r.error.toList ++ r.message.toList

theorem fits_cell_option_iff (shown : Option String) :
    Fits (cell shown).toList ↔ ∀ s ∈ shown.toList, Fits (cell (some s)).toList := by
  cases shown with
  | none =>
      have hnone : ∀ ch ∈ "N/A".toList, ch ≠ '|' ∧ isLineBreak ch = false := by simp [isLineBreak]
      refine iff_of_true ?_ nofun
      rw [cell]
      exact fits_of_plain hnone
  | some s => rw [Option.toList_some, List.forall_mem_singleton]

/-- The cells of a row fit if the id does and the texts do. -/
theorem fits_cellsOf_iff {time : String}
    (htime : ∀ r, run.caseResults.result? c.id = some r → secondsText r.duration = .ok time) :
    (∀ s ∈ cellsOf run c time, Fits s.toList) ↔
      Fits (idCell c.id).toList ∧ ∀ s ∈ shownTexts run c, Fits (cell (some s)).toList := by
  unfold cellsOf shownTexts
  rw [List.forall_mem_append, List.forall_mem_cons, List.forall_mem_singleton, List.forall_mem_cons, and_assoc]
  refine and_congr_right fun _ => and_congr_right fun _ => ?_
  cases hr : run.caseResults.result? c.id with
  | none => exact iff_of_true nofun nofun
  | some r =>
      have htime := fits_secondsText (htime r hr)
      dsimp only
      split
      · rw [List.forall_mem_cons, List.forall_mem_singleton, fits_cell_option_iff r.message]
        exact and_iff_right htime
      · rw [List.forall_mem_cons, List.forall_mem_cons, List.forall_mem_cons, List.forall_mem_singleton,
          List.forall_mem_append, fits_cell_option_iff r.error, fits_cell_option_iff r.message]
        exact ⟨fun h => ⟨h.2.1, h.2.2.1⟩, fun h => ⟨htime, h.1, h.2, fits_link c r⟩⟩

theorem columns_eq (g : Group) : columns g = match g with
    | .failed => 6
    | .passed => 4
    | .notRun => 2 := by
  cases g <;> decide

/-- A row is put together of a cell for every column. -/
theorem length_cellsOf {time : String}
    (h : (run.caseResults.result? c.id).map (·.status) = g.verdict?) :
    (cellsOf run c time).length = columns g := by
  unfold cellsOf
  rw [columns_eq]
  cases hr : run.caseResults.result? c.id with
  | none =>
      rw [hr] at h
      cases g with
      | notRun => rfl
      | passed | failed => cases h
  | some r =>
      rw [hr] at h
      cases g with
      | notRun => cases h
      | passed =>
          have hpassed : r.passed = true := beq_iff_eq.mpr (Option.some.inj h)
          dsimp only
          rw [if_pos hpassed]
          rfl
      | failed =>
          have hfailed : ¬ r.passed = true := by
            rw [CaseResult.passed, show r.status = .fail from Option.some.inj h]
            decide
          dsimp only
          rw [if_neg hfailed]
          rfl

/-- **The rows that read as they should**: a report has a row for every case, and it is a single line with
    a cell for every column exactly if no line ends in the case's id, every bar in the id is behind an odd
    number of backslashes, and every bar in the other texts that the row shows, once their blanks are made
    single spaces, is behind an even number of them. -/
theorem row_wellFormed_iff (run : Run) (now : Instant) (report : Report) (c : TestCase)
    (h : ofRun run now = .ok report) (hc : c ∈ run.testCases) :
    ∃ row, rowFor run c = .ok row ∧ report.HasLine row.text ∧
      (row.WellFormed ↔ (∀ ch ∈ c.id.toList, isLineBreak ch = false) ∧
        (∀ n, BarBehind n c.id.toList → n % 2 = 1) ∧
        ∀ s ∈ shownTexts run c, ∀ n, BarBehind n (squeeze s.toList) → n % 2 = 0) := by
  obtain ⟨row, hrow, hline⟩ := hasLine_of_mem h hc
  obtain ⟨hgroup, time, htext, htime⟩ := text_of_rowFor hrow
  have hfits := @wellFormed_iff_fits (cellsOf run c time) (List.cons_ne_nil _ _)
  rw [← htext, length_cellsOf hgroup, fits_cellsOf_iff htime, fits_idCell_iff, and_assoc] at hfits
  have htexts : (∀ s ∈ shownTexts run c, Fits (cell (some s)).toList) ↔
      ∀ s ∈ shownTexts run c, ∀ n, BarBehind n (squeeze s.toList) → n % 2 = 0 :=
    forall₂_congr fun _ _ => fits_cell_iff
  rw [htexts] at hfits
  exact ⟨row, hrow, hline, fun h => hfits.mp ⟨h.line, h.aligned⟩, fun h => ⟨(hfits.mpr h).1, (hfits.mpr h).2⟩⟩

/-- A pending run of cases with bars and a line end in their ids and titles. -/
def barred : Run where
  id := "10101T000000Z_00000001"
  project := "shop"
  testCases := [ { id := "a|b", title := "Save" }, { id := "c", title := "a\\|b" },
    { id := "d\ne", title := "Save" }, { id := "f", title := "a|b" } ]
  config := {}
  counts := { total := 4, pending := 4 }
  caseResults := [("a|b", none), ("c", none), ("d\ne", none), ("f", none)]
  createdAt := ⟨0⟩

/-- A bar in an id, a bar behind a backslash in a title, and a line end in an id break the rows of their
    cases; a bar alone in a title does not. -/
theorem row_wellFormed_barred : ∃ report, ofRun barred ⟨0⟩ = .ok report ∧
    (∀ c ∈ barred.testCases.take 3, ∃ row, rowFor barred c = .ok row ∧ report.HasLine row.text ∧
      ¬ row.WellFormed) ∧
    ∀ c ∈ barred.testCases.drop 3, ∃ row, rowFor barred c = .ok row ∧ report.HasLine row.text ∧
      row.WellFormed := by
  have hnone : ∀ c ∈ barred.testCases, barred.caseResults.result? c.id = none := by decide
  obtain ⟨report, hreport⟩ := (@exists_ofRun_iff barred ⟨0⟩).mpr
    { durations := fun c hc r hr => by
        rw [hnone c hc] at hr
        cases hr
      rate := fun hne => Binary64.isSome_quotient? hne (by decide) }
  have hrow := fun c => row_wellFormed_iff barred ⟨0⟩ report c hreport
  refine ⟨report, hreport, ?_, ?_⟩
  · refine List.forall_mem_cons.mpr ⟨?_, List.forall_mem_cons.mpr ⟨?_, List.forall_mem_singleton.mpr ?_⟩⟩
    · obtain ⟨row, hrow, hline, hiff⟩ := hrow { id := "a|b", title := "Save" } (by decide)
      refine ⟨row, hrow, hline, fun h => ?_⟩
      have hodd := (hiff.mp h).2.1 0 ⟨['a'], ['b'], by decide, by decide⟩
      cases hodd
    · obtain ⟨row, hrow, hline, hiff⟩ := hrow { id := "c", title := "a\\|b" } (by decide)
      refine ⟨row, hrow, hline, fun h => ?_⟩
      have heven := (hiff.mp h).2.2 "a\\|b" List.mem_cons_self 1 ⟨['a'], ['b'], by decide, by decide⟩
      cases heven
    · obtain ⟨row, hrow, hline, hiff⟩ := hrow { id := "d\ne", title := "Save" } (by decide)
      refine ⟨row, hrow, hline, fun h => ?_⟩
      have hbreak := (hiff.mp h).1 '\n' (by decide)
      cases hbreak
  · refine List.forall_mem_singleton.mpr ?_
    obtain ⟨row, hrow, hline, hiff⟩ := hrow { id := "f", title := "a|b" } (by decide)
    refine ⟨row, hrow, hline, hiff.mpr ⟨by simp [isLineBreak], ?_, List.forall_mem_singleton.mpr ?_⟩⟩
    · have hid : bars false false "f".toList = 0 := by decide
      simpa using bars_eq_zero_iff_barBehind.mp hid
    · have htitle : bars true false (squeeze "a|b".toList) = 0 := by decide
      simpa using bars_eq_zero_iff_barBehind.mp htitle

end Report

end StepRunner
