import StepRunner.Proofs.Text.Longest
import StepRunner.Proofs.Text.Occurrence
import StepRunner.Step.Quotation

/-!
# A value in quotes

A sentence quotes a value (`IsQuoted`) as a whole, also one with quotes in it, as long as these stand inside
words: where a word goes on, no quotation ends.

* `IsQuoted.quotedText?`: the quotation of the sentence is the value;
* `IsQuoted.of_valueAfter?`: behind a keyword stands no other value, and the keyword stands in front of it;
* `IsQuoted.without_cases`: the value is taken out of what comes before its quotation if it stands there, and
  else out of the quotation;
* `quotedText?_eq_some_iff`: of any sentence, what is quoted is the first text that stands between quotes
  (`FirstQuoted`), if it is not blank.
-/

namespace StepRunner.Step

open Text

variable {c : Char} {cs read rest lead tail before u v w : List Char} {keyword : String}

/-! ## 1. Quotes -/

/-- A straight or curly quote. -/
def isQuote (c : Char) : Bool := isOpeningQuote c || isClosingQuote c

/-- Every quote of the text stands directly between two characters of words. -/
def QuotesInWords (v : List Char) : Prop := ∀ before c behind, v = before ++ c :: behind → isQuote c = true →
  before.getLast?.any isWord = true ∧ behind.head?.any isWord = true

/-- A text in straight quotes. -/
def inQuotes (v : List Char) : List Char := '\'' :: (v ++ ['\''])

/-- Between texts without quotes, and with no word on either side, a line is quoted, whose own quotes stand
    inside words. -/
structure IsQuoted (lead v tail : List Char) : Prop where
  filled : v ≠ []
  line : '\n' ∉ v
  quotes : QuotesInWords v
  apart : (lead ++ tail).any isQuote = false
  starts : atWordStart lead.getLast? = true
  ends : atWordEnd tail = true

theorem append_inQuotes (lead v tail : List Char) :
    lead ++ inQuotes v ++ tail = lead ++ '\'' :: (v ++ '\'' :: tail) := by
  simp [inQuotes]

theorem isQuote_of_isStraightQuote (h : isStraightQuote c = true) : isQuote c = true := by
  rcases Bool.or_eq_true_iff.mp h with h | h <;> rw [beq_iff_eq.mp h] <;> rfl

/-! ## 2. What is read of a quotation -/

/-- On one line, and at every quote a word goes on. -/
def Unbroken (w rest : List Char) : Prop := ∀ before c behind, w = before ++ c :: behind →
  c ≠ '\n' ∧ (isQuote c = true → atWordEnd (behind ++ rest) = false)

theorem unbroken_cons (h : Unbroken (c :: w) rest) :
    c ≠ '\n' ∧ (isQuote c = true → atWordEnd (w ++ rest) = false) ∧ Unbroken w rest :=
  ⟨(h [] c w rfl).1, (h [] c w rfl).2, fun before d behind e => h (c :: before) d behind (congrArg (c :: ·) e)⟩

theorem quotationBody?_append (h : Unbroken w rest) :
    quotationBody? read (w ++ rest) = quotationBody? (w.reverse ++ read) rest := by
  induction w generalizing read with
  | nil => rfl
  | cons c w ih =>
      obtain ⟨hline, hquote, hw⟩ := unbroken_cons h
      have hgoes : ¬ (!read.isEmpty && isClosingQuote c && atWordEnd (w ++ rest)) = true := by
        intro hends
        obtain ⟨hends, hend⟩ := Bool.and_eq_true_iff.mp hends
        rw [hquote (by rw [isQuote, (Bool.and_eq_true_iff.mp hends).2, Bool.or_true])] at hend
        cases hend
      rw [List.cons_append, quotationBody?, if_neg hgoes, if_neg hline, ih hw, List.reverse_cons, List.append_assoc]
      rfl

theorem valueBody?_append (h : Unbroken w rest) :
    valueBody? read (w ++ rest) = valueBody? (w.reverse ++ read) rest := by
  induction w generalizing read with
  | nil => rfl
  | cons c w ih =>
      obtain ⟨hline, hquote, hw⟩ := unbroken_cons h
      have hgoes : ¬ (isStraightQuote c && atWordEnd (w ++ rest)) = true := by
        intro hends
        obtain ⟨hstraight, hend⟩ := Bool.and_eq_true_iff.mp hends
        rw [hquote (isQuote_of_isStraightQuote hstraight)] at hend
        cases hend
      rw [List.cons_append, valueBody?, if_neg hgoes, if_neg hline, ih hw, List.reverse_cons, List.append_assoc]
      rfl

/-- What is read behind a keyword ends in a straight quote. -/
theorem exists_of_valueBody? (h : valueBody? read cs = some v) : ∃ c ∈ cs, isQuote c = true := by
  induction cs generalizing read with
  | nil => cases h
  | cons c cs ih =>
      rw [valueBody?] at h
      split at h
      · next hends => exact ⟨c, List.mem_cons_self, isQuote_of_isStraightQuote (Bool.and_eq_true_iff.mp hends).1⟩
      · split at h
        · cases h
        · obtain ⟨d, hd, hquote⟩ := ih h
          exact ⟨d, List.mem_cons_of_mem c hd, hquote⟩

namespace IsQuoted

theorem isQuote_eq_false (h : IsQuoted lead v tail) (hc : c ∈ lead ++ tail) : isQuote c = false :=
  Bool.not_eq_true _ ▸ List.any_eq_false.mp h.apart c hc

/-- **No quote of the value ends its quotation.** -/
theorem unbroken (h : IsQuoted lead v tail) (rest : List Char) : Unbroken v rest := by
  rintro before c behind rfl
  refine ⟨fun e => h.line (by simp [e]), fun hquote => ?_⟩
  obtain ⟨-, hword⟩ := h.quotes before c behind rfl hquote
  cases behind with
  | nil => cases hword
  | cons d behind =>
      have hd : isWord d = true := hword
      rw [List.cons_append, atWordEnd_cons, hd]
      rfl

theorem quotationBody? (h : IsQuoted lead v tail) : Step.quotationBody? [] (v ++ '\'' :: tail) = some v := by
  have hfilled : v.reverse.isEmpty = false := by simpa using h.filled
  rw [quotationBody?_append (h.unbroken _), List.append_nil, Step.quotationBody?, hfilled, h.ends]
  exact congrArg some (List.reverse_reverse v)

theorem valueBody? (h : IsQuoted lead v tail) : Step.valueBody? [] (v ++ '\'' :: tail) = some v := by
  rw [valueBody?_append (h.unbroken _), List.append_nil, Step.valueBody?, h.ends]
  exact congrArg some (List.reverse_reverse v)

/-- **The quotation of the sentence** is the value. -/
theorem quotedText? (h : IsQuoted lead v tail) (hv : allBlank v = false) :
    Step.quotedText? (lead ++ inQuotes v ++ tail) = some v := by
  have hsearch : search quotationHere? (lead ++ inQuotes v ++ tail) = some v := by
    refine search_eq_some_iff.mpr ⟨lead, '\'' :: (v ++ '\'' :: tail), append_inQuotes lead v tail, ?_, ?_⟩
    · rw [quotationHere?, h.starts]
      exact h.quotationBody?
    · intro front back e hne
      obtain ⟨c, back, rfl⟩ := List.exists_cons_of_ne_nil hne
      have hopens : isOpeningQuote c = false := (Bool.or_eq_false_iff.mp (h.isQuote_eq_false (by simp [e]))).1
      rw [List.cons_append, quotationHere?, hopens]
      rfl
  rw [Step.quotedText?, hsearch, Option.filter_some, hv]
  rfl

end IsQuoted

/-! ## 3. Values behind a keyword -/

/-- **What is read behind a keyword** stands behind the keyword, blanks and a straight quote. -/
theorem exists_of_valueAfter? (hk : ' ' ∉ keyword.toList) (h : valueAfter? keyword cs = some v) :
    ∃ w blanks q rest, cs = w ++ blanks ++ q :: rest ∧ w.map fold = keyword.toList ∧
      (blanks ≠ [] ∧ ∀ c ∈ blanks, isBlank c = true) ∧ isStraightQuote q = true ∧
        valueBody? [] rest = some v := by
  unfold valueAfter? at h
  split at h
  · next q rest hread =>
      split at h
      · next hq =>
          obtain ⟨mid, hmid, hrest⟩ := Option.bind_eq_some_iff.mp hread
          rw [← afterLiteral?_eq_afterKeyword? hk] at hmid
          obtain ⟨w, rfl, hw⟩ := afterLiteral?_eq_some_iff.mp hmid
          obtain ⟨blanks, rfl, hblanks⟩ := exists_of_afterBlanks? hrest
          exact ⟨w, blanks, q, rest, (List.append_assoc _ _ _).symm, hw, hblanks, hq, h⟩
      · cases h
  · cases h

namespace IsQuoted

/-- **Behind a keyword** stands no other value than the quoted one, and the keyword stands in front of it. -/
theorem of_valueAfter? (h : IsQuoted lead v tail) (hk : ' ' ∉ keyword.toList)
    (hplace : lead ++ inQuotes v ++ tail = before ++ rest) (hread : valueAfter? keyword rest = some u) :
    u = v ∧ ∃ w blanks, lead = before ++ w ++ blanks ∧ w.map fold = keyword.toList := by
  obtain ⟨w, blanks, q, rest, rfl, hw, ⟨hne, hblanks⟩, hq, hbody⟩ := exists_of_valueAfter? hk hread
  have hquote := isQuote_of_isStraightQuote hq
  -- the quote is one of the two around the value, or one in it, or it stands where there are none
  rw [append_inQuotes, ← List.append_assoc, ← List.append_assoc] at hplace
  rcases append_cons_cases hplace with ⟨t, rfl, -⟩ | ⟨rfl, rfl, rfl⟩ | ⟨t, hfront, hbehind⟩
  · have hnone := h.isQuote_eq_false (c := q) (by simp)
    rw [hquote] at hnone
    cases hnone
  · rw [h.valueBody?] at hbody
    exact ⟨(Option.some.inj hbody).symm, w, blanks, rfl, hw⟩
  · exfalso
    rcases append_cons_cases hbehind with ⟨s, rfl, -⟩ | ⟨rfl, rfl, rfl⟩ | ⟨s, rfl, rfl⟩
    · -- inside the value a word stands in front of a quote, and not a blank
      obtain ⟨hword, -⟩ := h.quotes t q s rfl hquote
      obtain ⟨c, hlast⟩ : ∃ c, t.getLast? = some c := by
        cases ht : t.getLast? with
        | none =>
            rw [ht] at hword
            cases hword
        | some c => exact ⟨c, rfl⟩
      have hc : isWord c = true := by rwa [hlast] at hword
      have hend : blanks.getLast? = some c := by
        have hall := congrArg List.getLast? hfront
        rwa [List.getLast?_append_of_ne_nil _ hne, List.getLast?_append_of_ne_nil _ (List.cons_ne_nil _ _),
          List.getLast?_cons, hlast] at hall
      rw [isWord_eq_false_of_isBlank (hblanks c (List.mem_of_getLast? hend))] at hc
      cases hc
    · obtain ⟨c, hc, hquote⟩ := exists_of_valueBody? hbody
      rw [h.isQuote_eq_false (List.mem_append_right lead hc)] at hquote
      cases hquote
    · have hnone := h.isQuote_eq_false (c := q) (by simp)
      rw [hquote] at hnone
      cases hnone

/-- **A search behind a keyword** finds the value, and only where the keyword stands in front of it. -/
theorem of_search_valueAfter? (h : IsQuoted lead v tail) (hk : ' ' ∉ keyword.toList)
    (hread : search (atWord (Step.valueAfter? keyword)) (lead ++ inQuotes v ++ tail) = some u) :
    u = v ∧ keyword.toList ⊆ lead.map fold := by
  obtain ⟨before, rest, hplace, hread⟩ := exists_of_search_eq_some hread
  rw [atWord] at hread
  split at hread
  · obtain ⟨hu, w, blanks, rfl, hw⟩ := h.of_valueAfter? hk hplace hread
    refine ⟨hu, ?_⟩
    rw [← hw, List.map_append, List.map_append]
    exact List.Subset.trans (List.subset_append_right _ _) (List.subset_append_left _ _)
  · cases hread

/-! ## 4. The sentence without the value -/

/-- Only in its quotation stands a value that does not stand in front of it. -/
theorem before_of_standsFirst (h : IsQuoted lead v tail) (hlead : ¬ v <:+: lead) {behind : List Char}
    (hfirst : StandsFirst v (lead ++ inQuotes v ++ tail) before behind) :
    before = lead ++ ['\''] ∧ behind = '\'' :: tail := by
  -- no beginning of the value can stand at the end of what comes before a quote of it
  have hacross (s t : List Char) (hs : s = [] ∨ s.getLast? = lead.getLast?) : v ≠ s ++ '\'' :: t := by
    intro e
    obtain ⟨hword, -⟩ := h.quotes s '\'' t e rfl
    rcases hs with rfl | hs
    · cases hword
    · have hstarts := h.starts
      rw [← hs, atWordStart, hword] at hstarts
      cases hstarts
  have hplace := hfirst.place
  rw [append_inQuotes] at hplace
  rcases append_cons_eq_append_append hplace with ⟨t, rfl, ht⟩ | ⟨s, t, hv, rfl, -⟩ | ⟨s, -, rfl⟩
  · have hlength := hfirst.first (lead ++ ['\'']) ('\'' :: tail) (by simp [inQuotes])
    obtain rfl : t = [] := by
      refine List.eq_nil_of_length_eq_zero ?_
      simp only [List.length_append, List.length_cons, List.length_nil] at hlength
      omega
    exact ⟨rfl, (List.append_cancel_left ht).symm⟩
  · refine absurd hv (hacross s t ?_)
    by_cases hs : s = []
    · exact .inl hs
    · exact .inr (List.getLast?_append_of_ne_nil before hs).symm
  · exact absurd ⟨before, s, rfl⟩ hlead

theorem without_cases (h : IsQuoted lead v tail) :
    (∃ before between, StandsFirst v lead before between ∧ without (lead ++ inQuotes v ++ tail) (some v) =
        before ++ ' ' :: (between ++ inQuotes v ++ tail)) ∨
      (¬ v <:+: lead ∧ without (lead ++ inQuotes v ++ tail) (some v) = lead ++ inQuotes [' '] ++ tail) := by
  have hwithout (cs : List Char) : without cs (some v) = replaceFirst v [' '] cs := by
    obtain ⟨c, t, e⟩ := List.exists_cons_of_ne_nil h.filled
    rw [e]
    rfl
  by_cases hlead : v <:+: lead
  · obtain ⟨before, between, hfirst⟩ := exists_standsFirst hlead
    refine .inl ⟨before, between, hfirst, ?_⟩
    rw [hwithout, List.append_assoc, replaceFirst_of_standsFirst (hfirst.append _)]
    simp
  · have hstands : v <:+: lead ++ inQuotes v ++ tail := ⟨lead ++ ['\''], '\'' :: tail, by simp [inQuotes]⟩
    obtain ⟨before, behind, hfirst⟩ := exists_standsFirst hstands
    obtain ⟨rfl, rfl⟩ := h.before_of_standsFirst hlead hfirst
    refine .inr ⟨hlead, ?_⟩
    rw [hwithout, replaceFirst_of_standsFirst hfirst]
    simp [inQuotes]

end IsQuoted

/-! ## 5. The first quotation -/

/-- The text goes on with a body on one line and a quote that ends a quotation: no word touches it from behind. -/
structure IsClosed (cs body after : List Char) : Prop where
  place : ∃ q, cs = body ++ q :: after ∧ isClosingQuote q = true
  line : '\n' ∉ body
  ends : ∀ c ∈ after.head?, isWord c = false

/-- Behind what was read of it, a body that is not empty as a whole ends in the first quote that can end it. -/
structure ClosesFirst (read cs body : List Char) : Prop where
  closed : ∃ after, IsClosed cs body after
  filled : read = [] → body ≠ []
  shortest : ∀ body' after, IsClosed cs body' after → (read = [] → body' ≠ []) → body.length ≤ body'.length

/-- Behind `before`, and behind no word, the text quotes the body. -/
structure QuotesAt (cs before body : List Char) : Prop where
  place : ∃ q rest, cs = before ++ q :: rest ∧ isOpeningQuote q = true ∧ ClosesFirst [] rest body
  starts : ∀ c ∈ before.getLast?, isWord c = false

/-- The text quotes the body, and nothing in front of it. -/
def FirstQuoted (cs body : List Char) : Prop :=
  ∃ before, QuotesAt cs before body ∧ ∀ b v, QuotesAt cs b v → before.length ≤ b.length

theorem isClosed_nil_iff {after : List Char} : IsClosed (c :: cs) [] after ↔
    isClosingQuote c = true ∧ after = cs ∧ atWordEnd cs = true := by
  rw [atWordEnd_iff]
  constructor
  · rintro ⟨⟨q, e, hq⟩, -, ends⟩
    obtain ⟨rfl, rfl⟩ := List.cons.inj e
    exact ⟨hq, rfl, ends⟩
  · rintro ⟨hc, rfl, ends⟩
    exact ⟨⟨c, rfl, hc⟩, List.not_mem_nil, ends⟩

theorem isClosed_cons_iff {body after : List Char} : IsClosed (c :: cs) (d :: body) after ↔
    c = d ∧ c ≠ '\n' ∧ IsClosed cs body after := by
  constructor
  · rintro ⟨⟨q, e, hq⟩, line, ends⟩
    obtain ⟨rfl, ht⟩ := List.cons.inj e
    rw [List.mem_cons, not_or] at line
    exact ⟨rfl, Ne.symm line.1, ⟨q, ht, hq⟩, line.2, ends⟩
  · rintro ⟨rfl, hline, ⟨q, rfl, hq⟩, line, ends⟩
    exact ⟨⟨q, rfl, hq⟩, by simp [Ne.symm hline, line], ends⟩

theorem not_isClosed_nil {body after : List Char} : ¬ IsClosed [] body after := by
  rintro ⟨⟨q, e, -⟩, -, -⟩
  simp at e

/-- A character that ends nothing belongs to the body. -/
theorem closesFirst_cons_iff (hgoes : ¬ (read ≠ [] ∧ isClosingQuote c = true ∧ atWordEnd cs = true)) :
    ClosesFirst read (c :: cs) v ↔ c ≠ '\n' ∧ ∃ body, v = c :: body ∧ ClosesFirst (c :: read) cs body := by
  have hcons {body after : List Char} (hclosed : IsClosed (c :: cs) body after) (hfilled : read = [] → body ≠ []) :
      c ≠ '\n' ∧ ∃ t, body = c :: t ∧ IsClosed cs t after := by
    cases body with
    | nil =>
        obtain ⟨hc, -, hend⟩ := isClosed_nil_iff.mp hclosed
        exact absurd ⟨fun hread => hfilled hread rfl, hc, hend⟩ hgoes
    | cons d t =>
        obtain ⟨rfl, hline, hclosed⟩ := isClosed_cons_iff.mp hclosed
        exact ⟨hline, t, rfl, hclosed⟩
  constructor
  · rintro ⟨⟨after, hclosed⟩, hfilled, hshortest⟩
    obtain ⟨hline, body, rfl, hbody⟩ := hcons hclosed hfilled
    refine ⟨hline, body, rfl, ⟨after, hbody⟩, nofun, fun body' after' hclosed' _ => ?_⟩
    exact Nat.le_of_succ_le_succ
      (hshortest (c :: body') after' (isClosed_cons_iff.mpr ⟨rfl, hline, hclosed'⟩) fun _ => List.cons_ne_nil _ _)
  · rintro ⟨hline, body, rfl, ⟨after, hclosed⟩, -, hshortest⟩
    refine ⟨⟨after, isClosed_cons_iff.mpr ⟨rfl, hline, hclosed⟩⟩, fun _ => List.cons_ne_nil _ _,
      fun body' after' hclosed' hfilled => ?_⟩
    obtain ⟨-, t, rfl, ht⟩ := hcons hclosed' hfilled
    exact Nat.succ_le_succ (hshortest t after' ht nofun)

/-- **The body of a quotation** goes up to the first quote that can end it. -/
theorem quotationBody?_eq_some_iff : quotationBody? read cs = some v ↔
    ∃ body, v = read.reverse ++ body ∧ ClosesFirst read cs body := by
  induction cs generalizing read with
  | nil =>
      refine iff_of_false nofun ?_
      rintro ⟨body, -, hfirst⟩
      obtain ⟨after, hclosed⟩ := hfirst.closed
      exact not_isClosed_nil hclosed
  | cons c cs ih =>
      have hends : (!read.isEmpty && isClosingQuote c && atWordEnd cs) = true ↔
          read ≠ [] ∧ isClosingQuote c = true ∧ atWordEnd cs = true := by simp [and_assoc]
      rw [quotationBody?]
      split
      · next h =>
          rw [hends] at h
          have hclosed : IsClosed (c :: cs) [] cs := isClosed_nil_iff.mpr ⟨h.2.1, rfl, h.2.2⟩
          rw [Option.some_inj]
          constructor
          · rintro rfl
            exact ⟨[], (List.append_nil _).symm, ⟨cs, hclosed⟩, fun hread => absurd hread h.1, fun _ _ _ _ => Nat.zero_le _⟩
          · rintro ⟨body, rfl, hfirst⟩
            have hle := hfirst.shortest [] cs hclosed fun hread => absurd hread h.1
            rw [List.length_eq_zero_iff.mp (Nat.le_zero.mp hle), List.append_nil]
      · next h =>
          rw [hends] at h
          simp only [closesFirst_cons_iff h]
          split
          · next hline => exact iff_of_false nofun fun ⟨_, _, hne, _⟩ => hne hline
          · next hline =>
              rw [ih]
              constructor
              · rintro ⟨body, rfl, hfirst⟩
                exact ⟨c :: body, by simp, hline, body, rfl, hfirst⟩
              · rintro ⟨_, rfl, -, body, rfl, hfirst⟩
                exact ⟨body, by simp, hfirst⟩

theorem quotesAt_iff : QuotesAt cs before v ↔
    ∃ rest, cs = before ++ rest ∧ quotationHere? before.getLast? rest = some v := by
  have hbody {rest : List Char} : Step.quotationBody? [] rest = some v ↔ ClosesFirst [] rest v := by
    simp [quotationBody?_eq_some_iff]
  constructor
  · rintro ⟨⟨q, rest, rfl, hq, hfirst⟩, hstarts⟩
    refine ⟨q :: rest, rfl, ?_⟩
    rw [quotationHere?, hq, atWordStart_iff.mpr hstarts]
    exact hbody.mpr hfirst
  · rintro ⟨rest, rfl, hread⟩
    cases rest with
    | nil => cases hread
    | cons q rest =>
        rw [quotationHere?] at hread
        split at hread
        · next hopens =>
            obtain ⟨hq, hstarts⟩ := Bool.and_eq_true_iff.mp hopens
            exact ⟨⟨q, rest, rfl, hq, hbody.mp hread⟩, atWordStart_iff.mp hstarts⟩
        · cases hread

/-- **The quoted text** of a sentence is the first that it quotes, unless that is blank. -/
theorem quotedText?_eq_some_iff : Step.quotedText? cs = some v ↔ FirstQuoted cs v ∧ allBlank v = false := by
  rw [Step.quotedText?, Option.filter_eq_some_iff, Bool.not_eq_true', search_eq_some_iff_first fun _ _ => quotesAt_iff]
  rfl

end StepRunner.Step
