import Mathlib.Data.List.TakeWhile
import StepRunner.Proofs.Text.Longest
import StepRunner.Proofs.Text.Occurrence
import StepRunner.Step.Selector

/-!
# Which selector a sentence has

* `markedName?_eq_some_iff`, `search_markedName?`: a name with a mark in front is found after a blank or at the
  start, and where the mark stands in one place only, nowhere else is looked;
* `head?_of_selector?`, `last_of_selector?`: what a selector starts with, and that it does not end in a blank;
* `selector?_eq_marked_iff`: the selector of a sentence with one hash mark is the mark with a name exactly if a
  blank or nothing comes before the mark and the characters of a name behind it are just the name;
* `selector?_eq_class_iff`: so it is with a point where there is no hash mark.
-/

namespace StepRunner.Step

open Text

variable {mark c : Char} {previous : Option Char} {cs front back name w rest more target : List Char}

/-! ## 1. Names -/

/-- A letter of ASCII or an underscore, and then letters, digits, underscores and hyphens. -/
structure IsName (name : List Char) : Prop where
  first : name.head?.any isNameStart = true
  chars : name.all (fun c => isAsciiWord c || c == '-') = true

instance (name : List Char) : Decidable (IsName name) :=
  decidable_of_iff (name.head?.any isNameStart = true ∧ name.all (fun c => isAsciiWord c || c == '-') = true)
    ⟨fun h => ⟨h.1, h.2⟩, fun h => ⟨h.first, h.chars⟩⟩

theorem ascii_of_isAsciiWord (h : isAsciiWord c = true) : c.toNat < 0x80 := by
  rcases Bool.or_eq_true_iff.mp h with h | hunderscore
  · rcases Bool.or_eq_true_iff.mp h with h | hdigit
    · rcases Bool.or_eq_true_iff.mp h with hupper | hlower
      · have hle : c ≤ 'Z' := (of_decide_eq_true hupper).2
        exact ascii_of_le hle (by decide)
      · have hle : c ≤ 'z' := of_decide_eq_true (Bool.and_eq_true_iff.mp hlower).2
        exact ascii_of_le hle (by decide)
    · have hle : c ≤ '9' := of_decide_eq_true (Bool.and_eq_true_iff.mp hdigit).2
      exact ascii_of_le hle (by decide)
  · rw [beq_iff_eq.mp hunderscore]
    decide

theorem isWord_of_isAsciiWord (h : isAsciiWord c = true) : isWord c = true := by
  rw [isWord, if_pos (ascii_of_isAsciiWord h)]
  exact h

theorem isBlank_eq_false_of_isNameChar (h : isNameChar c = true) : isBlank c = false := by
  rcases Bool.or_eq_true_iff.mp h with hword | hhyphen
  · exact isBlank_eq_false_of_isWord hword
  · rw [beq_iff_eq.mp hhyphen]
    rfl

theorem IsName.nameChar (h : IsName name) : ∀ c ∈ name, isNameChar c = true := by
  intro c hc
  unfold isNameChar
  rcases Bool.or_eq_true_iff.mp (List.all_eq_true.mp h.chars c hc) with hword | hhyphen
  · rw [isWord_of_isAsciiWord hword, Bool.true_or]
  · rw [hhyphen, Bool.or_true]

theorem IsName.ascii (h : IsName name) : ∀ c ∈ name, c.toNat < 0x80 := by
  intro c hc
  rcases Bool.or_eq_true_iff.mp (List.all_eq_true.mp h.chars c hc) with hword | hhyphen
  · exact ascii_of_isAsciiWord hword
  · rw [beq_iff_eq.mp hhyphen]
    decide

theorem IsName.notMem (h : IsName name) (hc : isNameChar c = false) : c ∉ name := fun hmem => by
  rw [h.nameChar c hmem] at hc
  cases hc

theorem IsName.ne_nil (h : IsName name) : name ≠ [] := by
  rintro rfl
  cases h.first

/-! ## 2. Names with a mark -/

/-- **What a mark stands in front of**: a blank or nothing comes before it, and what follows it is the name. -/
theorem markedName?_eq_some_iff (h : IsName name) : markedName? mark previous (mark :: back) = some (mark :: name) ↔
    previous.all isBlank = true ∧ back.takeWhile isNameChar = name := by
  obtain ⟨c, t, rfl⟩ := List.exists_cons_of_ne_nil h.ne_nil
  have hc : isNameChar c = true := h.nameChar c List.mem_cons_self
  have hstart : isNameStart c = true := h.first
  cases back with
  | nil => exact iff_of_false nofun fun hback => nomatch hback.2
  | cons d rest =>
      rw [markedName?]
      constructor
      · intro hread
        split at hread
        · next hmark =>
            obtain ⟨rfl, ht⟩ := List.cons.inj (List.cons.inj (Option.some.inj hread)).2
            exact ⟨hmark.2.1, by rw [List.takeWhile_cons_of_pos hc, ht]⟩
        · cases hread
      · rintro ⟨hblank, hback⟩
        obtain rfl : d = c := by
          rw [List.takeWhile_cons] at hback
          split at hback
          · exact (List.cons.inj hback).1
          · cases hback
        rw [List.takeWhile_cons_of_pos hc] at hback
        rw [if_pos ⟨rfl, hblank, hstart⟩, hback]

theorem head?_of_markedName? (h : markedName? mark previous cs = some target) : cs.head? = some mark := by
  unfold markedName? at h
  split at h
  · next m c rest =>
      split at h
      · next hmark => exact congrArg some hmark.1
      · cases h
  · cases h

theorem markedName?_eq_none (h : cs.head? ≠ some mark) (previous : Option Char) : markedName? mark previous cs = none :=
  Option.eq_none_iff_forall_not_mem.mpr fun _ hread => h (head?_of_markedName? hread)

/-- Without the mark there is no name. -/
theorem searchFrom_markedName?_eq_none (h : mark ∉ cs) (previous : Option Char) :
    searchFrom (markedName? mark) previous cs = none := by
  rw [← Option.not_isSome_iff_eq_none, isSome_searchFrom_iff]
  rintro ⟨x, y, rfl, hsome⟩
  have hy : y.head? ≠ some mark := fun hhead => h (List.mem_append_right x (List.mem_of_mem_head? hhead))
  rw [markedName?_eq_none hy] at hsome
  cases hsome

/-- **A mark that stands in one place** is looked for there. -/
theorem search_markedName? (hfront : mark ∉ front) (hback : mark ∉ back) :
    search (markedName? mark) (front ++ mark :: back) = markedName? mark front.getLast? (mark :: back) := by
  have hlead : NothingIn (markedName? mark) none front (mark :: back) := by
    intro x y e hne
    obtain ⟨d, y, rfl⟩ := List.exists_cons_of_ne_nil hne
    refine markedName?_eq_none ?_ _
    rintro ⟨⟩
    exact hfront (by simp [e])
  unfold search
  rw [searchFrom_append hlead, Option.or_none, searchFrom, searchFrom_markedName?_eq_none hback]
  split
  · next hread => exact hread.symm
  · next hread => exact hread.symm

/-! ## 3. What a selector is -/

/-- A mark with the characters of a name behind it. -/
def IsMarked (mark : Char) (target : List Char) : Prop :=
  ∃ name, target = mark :: name ∧ name ≠ [] ∧ ∀ c ∈ name, isNameChar c = true

/-- A text in brackets. -/
def IsBracketed (target : List Char) : Prop := ∃ body, target = '[' :: (body ++ [']'])

theorem isNameChar_of_isNameStart (h : isNameStart c = true) : isNameChar c = true := by
  have hword : isAsciiWord c = true := by
    rcases Bool.or_eq_true_iff.mp h with halpha | hunderscore
    · rw [isAsciiWord, Char.isAlphanum, halpha, Bool.true_or, Bool.true_or]
    · rw [isAsciiWord, hunderscore, Bool.or_true]
  rw [isNameChar, isWord_of_isAsciiWord hword, Bool.true_or]

theorem isMarked_of_markedName? (h : markedName? mark previous cs = some target) : IsMarked mark target := by
  unfold markedName? at h
  split at h
  · next m c rest =>
      split at h
      · next hread =>
          obtain ⟨rfl, -, hstart⟩ := hread
          obtain rfl := Option.some.inj h
          refine ⟨_, rfl, List.cons_ne_nil _ _, List.forall_mem_cons.mpr ⟨isNameChar_of_isNameStart hstart, ?_⟩⟩
          exact fun d hd => List.mem_takeWhile_imp hd
      · cases h
  · cases h

theorem exists_of_afterQuotedBracket? (h : afterQuotedBracket? cs = some rest) : ∃ front, cs = front ++ ']' :: rest := by
  induction cs using afterQuotedBracket?.induct with
  | case1 more =>
      obtain rfl : more = rest := Option.some.inj h
      exact ⟨['"'], rfl⟩
  | case2 more =>
      obtain rfl : more = rest := Option.some.inj h
      exact ⟨['\''], rfl⟩
  | case3 => cases h
  | case4 more _ _ => cases h
  | case5 c more _ _ hc ih =>
      rw [afterQuotedBracket?, if_neg hc] at h
      · obtain ⟨front, rfl⟩ := ih h
        exact ⟨c :: front, rfl⟩
      all_goals assumption

theorem isBracketed_of_dataAttribute? (h : dataAttribute? cs = some target) : IsBracketed target := by
  unfold dataAttribute? at h
  split at h
  · cases h
  · next more hafter =>
      have hcut {q : Char} {body left : List Char} (hbody : more.dropWhile isNameChar = '=' :: q :: body)
          (hleft : afterQuotedBracket? body = some left) : IsBracketed (readUpTo cs left) := by
        obtain ⟨inside, rfl⟩ := exists_of_afterQuotedBracket? hleft
        have hplace : cs = '[' :: ("data-".toList ++ more.takeWhile isNameChar ++ '=' :: q :: inside ++ [']']) ++ left := by
          have hsplit : more = more.takeWhile isNameChar ++ '=' :: q :: (inside ++ ']' :: left) := by
            rw [← hbody, List.takeWhile_append_dropWhile]
          rw [after?_eq_some_iff.mp hafter]
          conv_lhs => rw [hsplit]
          simp
        rw [hplace, readUpTo_append]
        exact ⟨_, rfl⟩
      split at h
      · cases h
      · split at h
        · next body hbody =>
            obtain ⟨left, hleft, rfl⟩ := Option.map_eq_some_iff.mp h
            exact hcut hbody hleft
        · next body hbody =>
            obtain ⟨left, hleft, rfl⟩ := Option.map_eq_some_iff.mp h
            exact hcut hbody hleft
        · cases h

theorem isBracketed_of_bracketed? (h : bracketed? cs = some target) : IsBracketed target := by
  unfold bracketed? at h
  split at h
  · dsimp only at h
    split at h
    · split at h
      · cases h
      · obtain rfl := Option.some.inj h
        exact ⟨_, rfl⟩
    · cases h
  · cases h

theorem selector?_cases (h : selector? cs = some target) :
    (search (markedName? '#') cs = some target ∧ IsMarked '#' target) ∨ IsMarked '.' target ∨ IsBracketed target := by
  simp only [selector?, Option.orElse_eq_or, Option.or_eq_some_iff] at h
  rcases h with hname | ⟨-, hclass | ⟨-, hdata | ⟨-, hbrackets⟩⟩⟩
  · obtain ⟨before, rest, -, hread⟩ := exists_of_search_eq_some hname
    exact .inl ⟨hname, isMarked_of_markedName? hread⟩
  · obtain ⟨before, rest, -, hread⟩ := exists_of_search_eq_some hclass
    exact .inr (.inl (isMarked_of_markedName? hread))
  · obtain ⟨before, rest, -, hread⟩ := exists_of_search_eq_some hdata
    exact .inr (.inr (isBracketed_of_dataAttribute? hread))
  · obtain ⟨before, rest, -, hread⟩ := exists_of_search_eq_some hbrackets
    exact .inr (.inr (isBracketed_of_bracketed? hread))

/-- **A selector starts with** a hash mark, a point or a bracket. -/
theorem head?_of_selector? (h : selector? cs = some target) :
    target.head? = some '#' ∨ target.head? = some '.' ∨ target.head? = some '[' := by
  rcases selector?_cases h with ⟨-, name, rfl, -⟩ | ⟨name, rfl, -⟩ | ⟨body, rfl⟩
  · exact .inl rfl
  · exact .inr (.inl rfl)
  · exact .inr (.inr rfl)

theorem IsMarked.last (h : IsMarked mark target) : ∀ c ∈ target.getLast?, isBlank c = false := by
  obtain ⟨name, rfl, hfilled, hname⟩ := h
  intro c hc
  rw [← List.singleton_append, List.getLast?_append_of_ne_nil _ hfilled] at hc
  exact isBlank_eq_false_of_isNameChar (hname c (List.mem_of_getLast? hc))

/-- **A selector does not end in a blank.** -/
theorem last_of_selector? (h : selector? cs = some target) : ∀ c ∈ target.getLast?, isBlank c = false := by
  rcases selector?_cases h with ⟨-, hmarked⟩ | hmarked | ⟨body, rfl⟩
  · exact hmarked.last
  · exact hmarked.last
  · intro c hc
    rw [← List.cons_append, List.getLast?_concat] at hc
    obtain rfl := Option.some.inj hc
    rfl

/-! ## 4. The selector of a sentence -/

/-- **Where a sentence has one hash mark**, its selector is the mark with a name exactly if a blank or nothing
    comes before the mark and what follows it is the name. -/
theorem selector?_eq_marked_iff (h : IsName name) (hfront : '#' ∉ front) (hback : '#' ∉ back) :
    selector? (front ++ '#' :: back) = some ('#' :: name) ↔
      front.getLast?.all isBlank = true ∧ back.takeWhile isNameChar = name := by
  rw [← markedName?_eq_some_iff h, ← search_markedName? hfront hback]
  constructor
  · intro hsel
    rcases selector?_cases hsel with ⟨hname, -⟩ | ⟨_, ⟨⟩, -⟩ | ⟨_, ⟨⟩⟩
    exact hname
  · intro hname
    rw [selector?, hname]
    rfl

/-- **Where a sentence has one point** and no hash mark, the same holds of the point. -/
theorem selector?_eq_class_iff (h : IsName name) (hhash : '#' ∉ front ++ '.' :: back) (hfront : '.' ∉ front)
    (hback : '.' ∉ back) : selector? (front ++ '.' :: back) = some ('.' :: name) ↔
      front.getLast?.all isBlank = true ∧ back.takeWhile isNameChar = name := by
  have hnone : search (markedName? '#') (front ++ '.' :: back) = none := searchFrom_markedName?_eq_none hhash none
  rw [← markedName?_eq_some_iff h, ← search_markedName? hfront hback, selector?, hnone]
  simp only [Option.orElse_eq_or, Option.none_or, Option.or_eq_some_iff]
  refine or_iff_left ?_
  rintro ⟨-, hdata | ⟨-, hbrackets⟩⟩
  · obtain ⟨before, rest, -, hread⟩ := exists_of_search_eq_some hdata
    obtain ⟨_, ⟨⟩⟩ := isBracketed_of_dataAttribute? hread
  · obtain ⟨before, rest, -, hread⟩ := exists_of_search_eq_some hbrackets
    obtain ⟨_, ⟨⟩⟩ := isBracketed_of_bracketed? hread

end StepRunner.Step
