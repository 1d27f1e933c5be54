import StepRunner.Proofs.Json.Numerals
import StepRunner.Proofs.Json.Strings

/-!
# Forms of a JSON value

A value is written in one form for each `Layout`, which says what blanks set its parts apart. The indented
form and the form on one line are two of these: `written_lines` and `written_line`.

A value is `Proper` if its floats are numbers of the format and no object has a key twice. Of such a value
no form has a control character that the blanks of the layout do not have: `not_mem_written`.
-/

namespace StepRunner.Json

open Number Text

/-! ## 1. Proper values -/

mutual

/-- Floats are numbers of the format and objects have distinct keys. -/
def Proper : Json → Prop
  | .float x => x.Canonical
  | .arr items => AreProper items
  | .obj fields => (fields.map (·.1)).Nodup ∧ HaveProper fields
  | _ => True

/-- All items are proper. -/
def AreProper : List Json → Prop
  | [] => True
  | j :: rest => j.Proper ∧ AreProper rest

/-- The values of all fields are proper. -/
def HaveProper : List (String × Json) → Prop
  | [] => True
  | (_, j) :: rest => j.Proper ∧ HaveProper rest

end

theorem areProper_iff {items : List Json} : AreProper items ↔ ∀ j ∈ items, j.Proper := by
  induction items with
  | nil => simp [AreProper]
  | cons j rest ih => simp [AreProper, ih]

theorem haveProper_iff {fields : List (String × Json)} :
    HaveProper fields ↔ ∀ f ∈ fields, f.2.Proper := by
  induction fields with
  | nil => simp [HaveProper]
  | cons f rest ih => simp [HaveProper, ih]

theorem proper_ofString? (s : Option String) : (ofString? s).Proper := by
  cases s <;> trivial

/-! ## 2. Layouts -/

/-- The blanks that set the parts of a value apart: before the first part, behind the comma before any
    other, and behind the last. The parts of a value are one level further in than the value. -/
structure Layout where
  opened : Nat → List Char
  parted : Nat → List Char
  closed : Nat → List Char
  opened_blank : ∀ level, ∀ c ∈ opened level, isSpace c = true
  parted_blank : ∀ level, ∀ c ∈ parted level, isSpace c = true
  closed_blank : ∀ level, ∀ c ∈ closed level, isSpace c = true

theorem isSpace_newLine (level : Nat) : ∀ c ∈ newLine level, isSpace c = true := by
  intro c hc
  rcases List.mem_cons.mp hc with rfl | hc
  · rfl
  · rw [List.eq_of_mem_replicate hc]
    rfl

/-- One part a line. -/
def Layout.lines : Layout :=
  ⟨newLine, newLine, newLine, isSpace_newLine, isSpace_newLine, isSpace_newLine⟩

/-- All parts on one line. -/
def Layout.line : Layout :=
  ⟨fun _ => [], fun _ => [' '], fun _ => [], fun _ => nofun,
    fun _ c hc => by rw [List.mem_singleton.mp hc]; rfl, fun _ => nofun⟩

mutual

/-- The value in the form of a layout, from a level on. -/
def written (w : Layout) (level : Nat) : Json → List Char
  | .arr [] => "[]".toList
  | .arr items => '[' :: w.opened (level + 1) ++ writtenItems w (level + 1) items ++ w.closed level
      ++ [']']
  | .obj [] => ['\x7b', '\x7d']
  | .obj fields => '\x7b' :: w.opened (level + 1) ++ writtenFields w (level + 1) fields
      ++ w.closed level ++ ['\x7d']
  | .null => "null".toList
  | .bool true => "true".toList
  | .bool false => "false".toList
  | .int n => decimalInt n
  | .float x => floatText x
  | .str s => stringWith stringChar s

/-- Items with commas between them. -/
def writtenItems (w : Layout) (level : Nat) : List Json → List Char
  | [] => []
  | [j] => written w level j
  | j :: rest => written w level j ++ ',' :: w.parted level ++ writtenItems w level rest

/-- Fields with commas between them. -/
def writtenFields (w : Layout) (level : Nat) : List (String × Json) → List Char
  | [] => []
  | [(k, j)] => stringWith stringChar k ++ ": ".toList ++ written w level j
  | (k, j) :: rest => stringWith stringChar k ++ ": ".toList ++ written w level j
      ++ ',' :: w.parted level ++ writtenFields w level rest

end

mutual

/-- **One part a line** is the indented form. -/
theorem written_lines (level : Nat) : (j : Json) → written .lines level j = indentedAt level j := by
  intro j
  match j with
  | .null => rfl
  | .bool true => rfl
  | .bool false => rfl
  | .int n => rfl
  | .float x => rfl
  | .str s => rfl
  | .arr [] => rfl
  | .arr (j :: items) =>
      show '[' :: newLine (level + 1) ++ writtenItems .lines (level + 1) (j :: items) ++ newLine level
          ++ [']'] =
        '[' :: newLine (level + 1) ++ indentedItems (level + 1) (j :: items) ++ newLine level ++ [']']
      rw [writtenItems_lines]
  | .obj [] => rfl
  | .obj (f :: fields) =>
      show '\x7b' :: newLine (level + 1) ++ writtenFields .lines (level + 1) (f :: fields)
          ++ newLine level ++ ['\x7d'] =
        '\x7b' :: newLine (level + 1) ++ indentedFields (level + 1) (f :: fields) ++ newLine level
          ++ ['\x7d']
      rw [writtenFields_lines]

theorem writtenItems_lines (level : Nat) : (items : List Json) →
    writtenItems .lines level items = indentedItems level items := by
  intro items
  match items with
  | [] => rfl
  | [j] => exact written_lines level j
  | j :: x :: items =>
      show written .lines level j ++ ',' :: newLine level ++ writtenItems .lines level (x :: items) =
        indentedAt level j ++ ',' :: newLine level ++ indentedItems level (x :: items)
      rw [written_lines, writtenItems_lines]

theorem writtenFields_lines (level : Nat) : (fields : List (String × Json)) →
    writtenFields .lines level fields = indentedFields level fields := by
  intro fields
  match fields with
  | [] => rfl
  | [(k, j)] => rw [writtenFields, written_lines, indentedFields]
  | (k, j) :: f :: fields =>
      show stringWith stringChar k ++ ": ".toList ++ written .lines level j ++ ',' :: newLine level ++
          writtenFields .lines level (f :: fields) =
        stringWith stringChar k ++ ": ".toList ++ indentedAt level j ++ ',' :: newLine level ++
          indentedFields level (f :: fields)
      rw [written_lines, writtenFields_lines]

end

mutual

/-- **All parts on one line** is the compact form. -/
theorem written_line (level : Nat) : (j : Json) → written .line level j = lineWith stringChar j := by
  intro j
  match j with
  | .null => rfl
  | .bool true => rfl
  | .bool false => rfl
  | .int n => rfl
  | .float x => rfl
  | .str s => rfl
  | .arr [] => rfl
  | .arr (j :: items) =>
      show '[' :: writtenItems .line (level + 1) (j :: items) ++ [] ++ [']'] =
        '[' :: lineItems stringChar (j :: items) ++ [']']
      rw [writtenItems_line, List.append_nil]
  | .obj [] => rfl
  | .obj (f :: fields) =>
      show '\x7b' :: writtenFields .line (level + 1) (f :: fields) ++ [] ++ ['\x7d'] =
        '\x7b' :: lineFields stringChar (f :: fields) ++ ['\x7d']
      rw [writtenFields_line, List.append_nil]

theorem writtenItems_line (level : Nat) : (items : List Json) →
    writtenItems .line level items = lineItems stringChar items := by
  intro items
  match items with
  | [] => rfl
  | [j] => exact written_line level j
  | j :: x :: items =>
      show written .line level j ++ ',' :: [' '] ++ writtenItems .line level (x :: items) =
        lineWith stringChar j ++ ", ".toList ++ lineItems stringChar (x :: items)
      rw [written_line, writtenItems_line]
      rfl

theorem writtenFields_line (level : Nat) : (fields : List (String × Json)) →
    writtenFields .line level fields = lineFields stringChar fields := by
  intro fields
  match fields with
  | [] => rfl
  | [(k, j)] => rw [writtenFields, written_line, lineFields]
  | (k, j) :: f :: fields =>
      show stringWith stringChar k ++ ": ".toList ++ written .line level j ++ ',' :: [' '] ++
          writtenFields .line level (f :: fields) =
        stringWith stringChar k ++ ": ".toList ++ lineWith stringChar j ++ ", ".toList ++
          lineFields stringChar (f :: fields)
      rw [written_line, writtenFields_line]
      rfl

end

/-! ## 3. Control characters -/

open Binary64

variable {d : Char} {ds : List Char} {w : Layout}

theorem not_mem_digits (hd : IsControl d) (h : Digits ds) : d ∉ ds := by
  intro hm
  have hdigit := h d hm
  simp only [isAsciiDigit, Bool.and_eq_true, decide_eq_true_eq, Char.le_def] at hdigit
  have h0 : 48 ≤ d.toNat := hdigit.1
  have hlow : d.toNat < 32 := hd
  omega

theorem not_mem_decimalInt (hd : IsControl d) (n : Int) : d ∉ decimalInt n := by
  cases n with
  | ofNat n => exact not_mem_digits hd (digits_decimal n)
  | negSucc n =>
      rw [decimalInt, List.mem_cons, not_or]
      exact ⟨ne_of_isControl hd (by decide), not_mem_digits hd (digits_decimal _)⟩

theorem not_mem_positional (hd : IsControl d) (h : Digits ds) (power : Int) :
    d ∉ positional ds power := by
  have hpoint : d ≠ '.' := ne_of_isControl hd (by decide)
  have hzero : d ≠ '0' := ne_of_isControl hd (by decide)
  unfold positional
  split
  · simp [not_mem_digits hd h, hpoint, hzero]
  · dsimp only
    have hwide := not_mem_digits hd ((digits_replicate (power.natAbs + 1 - ds.length)).append h)
    rw [List.mem_append, List.mem_cons, not_or, not_or]
    exact ⟨fun hm => hwide (List.mem_of_mem_take hm), hpoint,
      fun hm => hwide (List.mem_of_mem_drop hm)⟩

theorem not_mem_scientific (hd : IsControl d) (h : Digits ds) (lead : Int) :
    d ∉ scientific ds lead := by
  have hpower := not_mem_digits hd (digits_padded 2 lead.natAbs)
  have hds := not_mem_digits hd h
  have he : d ≠ 'e' := ne_of_isControl hd (by decide)
  have hsign : d ≠ (if lead < 0 then '-' else '+') := by
    split <;> exact ne_of_isControl hd (by decide)
  have hpoint : d ≠ '.' := ne_of_isControl hd (by decide)
  unfold scientific
  split
  · simp [hpower, he, hsign]
  · simp_all
  · simp_all

theorem not_mem_floatText (hd : IsControl d) {x : Binary64} (h : x.Canonical) : d ∉ floatText x := by
  cases x with
  | nan => exact not_mem_of_isControl hd _ (by decide)
  | infinite negative => cases negative <;> exact not_mem_of_isControl hd _ (by decide)
  | finite negative m p =>
      unfold floatText text
      dsimp only
      have hsign : d ∉ if negative = true then ['-'] else [] := by
        split
        · exact not_mem_of_isControl hd _ (by decide)
        · exact nofun
      split
      · rw [List.mem_append, not_or]
        exact ⟨hsign, not_mem_of_isControl hd _ (by decide)⟩
      · next hm =>
          obtain ⟨-, -, hds, -⟩ := shortest_spec (p := p) h.1 hm
          rw [List.mem_append, not_or]
          refine ⟨hsign, ?_⟩
          split
          · exact not_mem_positional hd hds _
          · exact not_mem_scientific hd hds _

/-- The character is none of the blanks of a layout. -/
structure Layout.Lacks (w : Layout) (d : Char) : Prop where
  opened : ∀ level, d ∉ w.opened level
  parted : ∀ level, d ∉ w.parted level
  closed : ∀ level, d ∉ w.closed level

mutual

/-- **No control character** stands in a form of a value, but for the blanks of the layout. -/
theorem not_mem_written (hd : IsControl d) (hw : w.Lacks d) : (j : Json) → j.Proper → (level : Nat) →
    d ∉ written w level j := by
  intro j hp level
  match j with
  | .null => exact not_mem_of_isControl hd "null".toList (by decide)
  | .bool true => exact not_mem_of_isControl hd "true".toList (by decide)
  | .bool false => exact not_mem_of_isControl hd "false".toList (by decide)
  | .int n => exact not_mem_decimalInt hd n
  | .float x => exact not_mem_floatText hd hp
  | .str s => exact not_mem_stringWith hd s
  | .arr [] => exact not_mem_of_isControl hd "[]".toList (by decide)
  | .arr (j :: items) =>
      have hitems := not_mem_writtenItems hd hw (j :: items) hp (level + 1)
      have hbrackets := not_mem_of_isControl hd ['[', ']'] (by decide)
      simp_all [written, hw.opened, hw.closed]
  | .obj [] => exact not_mem_of_isControl hd ['\x7b', '\x7d'] (by decide)
  | .obj (f :: fields) =>
      have hfields := not_mem_writtenFields hd hw (f :: fields) hp.2 (level + 1)
      have hbraces := not_mem_of_isControl hd ['\x7b', '\x7d'] (by decide)
      simp_all [written, hw.opened, hw.closed]

theorem not_mem_writtenItems (hd : IsControl d) (hw : w.Lacks d) : (items : List Json) →
    AreProper items → (level : Nat) → d ∉ writtenItems w level items := by
  intro items hp level
  have hcomma : d ≠ ',' := ne_of_isControl hd (by decide)
  match items with
  | [] => exact nofun
  | [j] => exact not_mem_written hd hw j hp.1 level
  | j :: x :: items =>
      have hj := not_mem_written hd hw j hp.1 level
      have hrest := not_mem_writtenItems hd hw (x :: items) hp.2 level
      simp [writtenItems, hj, hrest, hcomma, hw.parted]

theorem not_mem_writtenFields (hd : IsControl d) (hw : w.Lacks d) : (fields : List (String × Json)) →
    HaveProper fields → (level : Nat) → d ∉ writtenFields w level fields := by
  intro fields hp level
  have hcomma : d ≠ ',' := ne_of_isControl hd (by decide)
  have hcolon : d ≠ ':' := ne_of_isControl hd (by decide)
  have hblank : d ≠ ' ' := ne_of_isControl hd (by decide)
  match fields with
  | [] => exact nofun
  | [(k, j)] =>
      have hj := not_mem_written hd hw j hp.1 level
      simp [writtenFields, hj, hcolon, hblank, not_mem_stringWith hd]
  | (k, j) :: f :: fields =>
      have hj := not_mem_written hd hw j hp.1 level
      have hrest := not_mem_writtenFields hd hw (f :: fields) hp.2 level
      simp [writtenFields, hj, hrest, hcomma, hcolon, hblank, hw.parted, not_mem_stringWith hd]

end

/-- Line breaks and spaces are the only blanks of the indented form. -/
theorem return_not_mem_indentedAt (j : Json) (hp : j.Proper) (level : Nat) :
    '\r' ∉ indentedAt level j := by
  have hbreaks (level : Nat) : '\r' ∉ newLine level := by simp [newLine]
  rw [← written_lines]
  exact not_mem_written (by decide) ⟨hbreaks, hbreaks, hbreaks⟩ j hp level

/-- **The form on one line** is on one line. -/
theorem not_mem_compact (hd : IsControl d) {j : Json} (hp : j.Proper) : d ∉ j.compact.toList := by
  have hblank : d ≠ ' ' := ne_of_isControl hd (by decide)
  have hlacks : Layout.line.Lacks d :=
    ⟨fun _ => nofun, fun _ => by simpa [Layout.line] using hblank, fun _ => nofun⟩
  rw [compact, String.toList_ofList, ← written_line 0]
  exact not_mem_written hd hlacks j hp 0

end StepRunner.Json
