import StepRunner.Proofs.Step.Address
import StepRunner.Proofs.Step.Quotation
import StepRunner.Proofs.Step.Reading

/-!
# What a sentence enters, and where

A sentence that types or fills has its value in quotes and its field by name. The value is found first, and its
first occurrence is gone when the field is looked for.

* `parseStep_typeInto`: where the field comes behind the value, the value may hold anything, and stand in the
  sentence more than once;
* `parseStep_fillWith`: where the field comes in front, it is found unless the value first stands across it
  (`BreaksUp`).
-/

namespace StepRunner

namespace Step

open Text

variable {c : Char} {cs before between front rest name s u v w z : List Char}

/-! ## 1. Names in a sentence -/

theorem isNameChar_eq_false_of_isQuote (h : isQuote c = true) : isNameChar c = false := by
  have hplain : ['"', '\'', '“', '‘', '”', '’'].all (fun c => !isNameChar c) = true := by decide +kernel
  have hc : c ∈ ['"', '\'', '“', '‘', '”', '’'] := by
    simp only [isQuote, isOpeningQuote, isClosingQuote, Bool.or_eq_true, beq_iff_eq] at h
    rcases h with (((h | h) | h) | h) | ((h | h) | h) | h <;> simp [h]
  simpa using List.all_eq_true.mp hplain c hc

theorem isNameChar_space : isNameChar ' ' = false := by decide +kernel

theorem IsName.any_isQuote (h : IsName name) : name.any isQuote = false :=
  List.any_eq_false.mpr fun _ hc hquote => h.notMem (isNameChar_eq_false_of_isQuote hquote) hc

theorem IsName.hash_notMem (h : IsName name) : '#' ∉ name ++ " with ".toList := by
  intro hmem
  rcases List.mem_append.mp hmem with hname | hwith
  · exact h.notMem (by decide +kernel) hname
  · exact absurd hwith (by decide)

/-- **A beginning of a name** is read as the name only if it is the whole of it. -/
theorem takeWhile_isNameChar_iff (h : IsName name) (hw : w <+: name ++ " with ".toList)
    (hstop : rest.head?.any isNameChar = false) :
    (w ++ rest).takeWhile isNameChar = name ↔ name.length ≤ w.length := by
  have hrest : ∀ c ∈ rest.head?, isNameChar c = false := fun c hc => by rwa [Option.mem_def.mp hc] at hstop
  constructor
  · intro htake
    by_contra hshort
    have hbegins : w <+: name := List.prefix_of_prefix_length_le hw (List.prefix_append _ _) (Nat.le_of_not_le hshort)
    have hrun : ∀ c ∈ w, isNameChar c = true := fun c hc => h.nameChar c (hbegins.subset hc)
    rw [takeWhile_run hrun hrest] at htake
    exact hshort (congrArg List.length htake).ge
  · intro hlong
    obtain ⟨x, rfl⟩ := List.prefix_of_prefix_length_le (List.prefix_append _ _) hw hlong
    rw [List.prefix_append_right_inj] at hw
    rw [List.append_assoc]
    refine takeWhile_run h.nameChar fun c hc => ?_
    cases x with
    | nil => exact hrest c hc
    | cons d x =>
        obtain ⟨rfl, -⟩ := List.cons_prefix_cons.mp hw
        obtain rfl := Option.some.inj hc
        exact isNameChar_space

/-- **The field of a sentence with one hash mark** is the name if a blank comes before the mark and the whole
    name behind it. -/
theorem selector?_eq_name_iff (h : IsName name) (hfront : '#' ∉ front) (hrest : '#' ∉ rest)
    (hw : w <+: name ++ " with ".toList) (hstop : rest.head?.any isNameChar = false) :
    selector? (front ++ '#' :: (w ++ rest)) = some ('#' :: name) ↔
      front.getLast?.all isBlank = true ∧ name.length ≤ w.length := by
  have hmark : '#' ∉ w := fun hmem => h.hash_notMem (hw.subset hmem)
  rw [selector?_eq_marked_iff h hfront (by simp [hmark, hrest]), takeWhile_isNameChar_iff h hw hstop]

/-! ## 2. Sentences that enter a value -/

/-- The sentence that types a value into the field with a name. -/
def typeInto (v name : List Char) : List Char := "type ".toList ++ inQuotes v ++ (" into #".toList ++ name)

-- Each is restated as an equation: unfolding it would evaluate the texts that it spells.
theorem typeInto_eq (v name : List Char) :
    typeInto v name = "type ".toList ++ inQuotes v ++ (" into #".toList ++ name) := rfl

/-- What comes before the value in the sentence that fills the field with a name. -/
def fillLead (name : List Char) : List Char := "fill #".toList ++ name ++ " with ".toList

theorem fillLead_eq (name : List Char) : fillLead name = "fill #".toList ++ name ++ " with ".toList := rfl

/-- The sentence that fills the field with a name. -/
def fillWith (name v : List Char) : List Char := fillLead name ++ inQuotes v

theorem find?_type (hnavigate : hasTrigger Family.navigate.triggers cs = false)
    (hclick : hasTrigger Family.click.triggers cs = false) (word : String) (hword : word ∈ Family.type.triggers)
    (h : Begins word cs) : Family.find? cs = some .type := by
  have htype : hasTrigger Family.type.triggers cs = true := hasTrigger_iff.mpr ⟨[], cs, rfl, rfl, word, hword, h⟩
  unfold Family.find? Family.all
  rw [List.find?_cons_of_neg (by simp [hnavigate]), List.find?_cons_of_neg (by simp [hclick])]
  exact List.find?_cons_of_pos htype

/-- The step of a sentence that enters a value. -/
def entering (cs v : List Char) : ParsedStep where
  action := .type
  sentence := String.ofList cs
  target := some (((selector? (without cs (some v))).map String.ofList).getD (inputField (without cs (some v))))
  value := some (String.ofList v)

theorem parseStep_entering (htrim : trim cs = cs) (hfind : Family.find? (lower cs) = some .type)
    (hvalue : value? cs = some v) : parseStep (String.ofList cs) = .ok (entering cs v) := by
  rw [parseStep, String.toList_ofList, htrim, parseTrimmed, hfind]
  show Except.ok _ = _
  rw [hvalue]
  rfl

/-- No locator of a field is a name with a hash mark. -/
theorem target_entering_eq_iff : (entering cs v).target = some (String.ofList ('#' :: name)) ↔
    selector? (without cs (some v)) = some ('#' :: name) := by
  unfold entering
  dsimp only
  cases hsel : selector? (without cs (some v)) with
  | some t =>
      rw [Option.map_some, Option.getD_some, Option.some_inj, Option.some_inj]
      exact ⟨fun e => String.ofList_injective e, congrArg String.ofList⟩
  | none =>
      refine iff_of_false (fun h => ?_) nofun
      have hhead := head?_inputField (without cs (some v))
      have hfield : inputField (without cs (some v)) = String.ofList ('#' :: name) := Option.some.inj h
      rw [hfield, String.toList_ofList] at hhead
      cases hhead

theorem isQuoted_typeInto (h : IsName name) (hv : allBlank v = false) (hline : '\n' ∉ v) (hquotes : QuotesInWords v) :
    IsQuoted "type ".toList v (" into #".toList ++ name) := by
  refine ⟨?_, hline, hquotes, ?_, rfl, rfl⟩
  · rintro rfl
    cases hv
  · rw [← List.append_assoc, List.any_append, h.any_isQuote]
    decide

theorem isQuoted_fillWith (h : IsName name) (hv : allBlank v = false) (hline : '\n' ∉ v)
    (hquotes : v.any isQuote = false) : IsQuoted (fillLead name) v [] := by
  have hlast : (fillLead name).getLast? = some ' ' := List.getLast?_append_of_ne_nil _ (List.cons_ne_nil _ _)
  refine ⟨?_, hline, ?_, ?_, by rw [hlast]; decide, rfl⟩
  · rintro rfl
    cases hv
  · rintro before c behind rfl hquote
    exact absurd hquote (List.any_eq_false.mp hquotes c (by simp))
  · rw [List.append_nil, fillLead_eq, List.any_append, List.any_append, h.any_isQuote]
    decide

/-! ## 3. The value in front of the field -/

theorem value?_typeInto (h : IsName name) (hv : allBlank v = false) (hline : '\n' ∉ v) (hquotes : QuotesInWords v) :
    value? (typeInto v name) = some v := by
  have hquoted := isQuoted_typeInto h hv hline hquotes
  -- the word in front of the value spells no keyword
  have hnone {keyword : String} (hk : ' ' ∉ keyword.toList) (hlead : ¬ keyword.toList ⊆ "type ".toList.map fold) :
      search (atWord (valueAfter? keyword)) (typeInto v name) = none :=
    Option.eq_none_iff_forall_not_mem.mpr fun u hu => hlead (hquoted.of_search_valueAfter? hk hu).2
  rw [value?, hnone (by decide) (by decide), hnone (by decide) (by decide)]
  show (quotedText? (typeInto v name)).orElse _ = some v
  rw [typeInto_eq, hquoted.quotedText? hv]
  rfl

/-- **The field behind the value** is found, whether the value was taken out of its quotation or out of the word
    in front, in which it may stand, too. -/
theorem selector?_typeInto (h : IsName name) (hquoted : IsQuoted "type ".toList v (" into #".toList ++ name)) :
    selector? (without (typeInto v name) (some v)) = some ('#' :: name) := by
  have hfield (front : List Char) (hfront : '#' ∉ front) (hblank : front.getLast? = some ' ') :
      selector? (front ++ '#' :: (name ++ [])) = some ('#' :: name) := by
    refine (selector?_eq_name_iff h hfront List.not_mem_nil (List.prefix_append _ _) rfl).mpr ⟨?_, Nat.le_refl _⟩
    rw [hblank]
    rfl
  rw [typeInto_eq]
  rcases hquoted.without_cases with ⟨before, between, hfirst, e⟩ | ⟨-, e⟩
  · have hhash : '#' ∉ before ++ v ++ between := by
      rw [← hfirst.place]
      decide
    rw [List.mem_append, List.mem_append, not_or, not_or] at hhash
    obtain ⟨⟨hbefore, hvalue⟩, hbetween⟩ := hhash
    have hsel := hfield (before ++ ' ' :: (between ++ inQuotes v ++ " into ".toList))
      (by simp [inQuotes, hbefore, hvalue, hbetween]) (by simp [List.getLast?_append, List.getLast?_cons])
    rw [e, ← hsel]
    simp
  · have hsel := hfield ("type ".toList ++ inQuotes [' '] ++ " into ".toList) (by decide) rfl
    rw [e, ← hsel]
    simp

theorem trim_typeInto (h : IsName name) : trim (typeInto v name) = typeInto v name := by
  refine trim_eq_self_of_ends (fun c hc => ?_) fun c hc => ?_
  · obtain rfl := Option.some.inj hc
    rfl
  · rw [typeInto_eq, ← List.append_assoc, List.getLast?_append_of_ne_nil _ h.ne_nil] at hc
    exact isBlank_eq_false_of_isNameChar (h.nameChar c (List.mem_of_getLast? hc))

/-- **Where the field comes behind the value**, the value is typed as it is, into the field of the name. -/
theorem parseStep_typeInto (h : IsName name) (hv : allBlank v = false) (hline : '\n' ∉ v) (hquotes : QuotesInWords v)
    (hnavigate : hasTrigger Family.navigate.triggers (lower (typeInto v name)) = false)
    (hclick : hasTrigger Family.click.triggers (lower (typeInto v name)) = false) :
    parseStep (String.ofList (typeInto v name)) = .ok
      { action := .type
        sentence := String.ofList (typeInto v name)
        target := some (String.ofList ('#' :: name))
        value := some (String.ofList v) } := by
  have hvalue := value?_typeInto h hv hline hquotes
  have hselector := selector?_typeInto h (isQuoted_typeInto h hv hline hquotes)
  have hfind : Family.find? (lower (typeInto v name)) = some .type :=
    find?_type hnavigate hclick "type" (by decide) ⟨_, "", _, rfl, by decide, rfl, rfl⟩
  rw [parseStep_entering (trim_typeInto h) hfind hvalue, entering, hselector]
  rfl

/-- **A value that mimics** the rest of the sentence is typed as it is. -/
theorem parseStep_typeInto_mimic :
    IsName "e-mail_1".toList ∧ allBlank "it's with #a [b] into".toList = false ∧
      '\n' ∉ "it's with #a [b] into".toList ∧ QuotesInWords "it's with #a [b] into".toList ∧
      hasTrigger Family.navigate.triggers (lower (typeInto "it's with #a [b] into".toList "e-mail_1".toList)) = false ∧
      hasTrigger Family.click.triggers (lower (typeInto "it's with #a [b] into".toList "e-mail_1".toList)) = false ∧
      parseStep "type 'it's with #a [b] into' into #e-mail_1" = .ok
        { action := .type
          sentence := "type 'it's with #a [b] into' into #e-mail_1"
          target := some "#e-mail_1"
          value := some "it's with #a [b] into" } := by
  have hname : IsName "e-mail_1".toList := by decide +kernel
  have hv : allBlank "it's with #a [b] into".toList = false := by decide +kernel
  have hline : '\n' ∉ "it's with #a [b] into".toList := by decide +kernel
  have hquotes : QuotesInWords "it's with #a [b] into".toList := by
    intro before c behind e hquote
    have hplain : ("it".toList ++ "s with #a [b] into".toList).any isQuote = false := by decide +kernel
    have hsplit : before ++ c :: behind = "it".toList ++ '\'' :: "s with #a [b] into".toList := e.symm
    rcases append_cons_cases hsplit with ⟨t, -, e⟩ | ⟨rfl, rfl, rfl⟩ | ⟨t, e, -⟩
    · exact absurd hquote (List.any_eq_false.mp hplain c (by simp [e]))
    · decide +kernel
    · exact absurd hquote (List.any_eq_false.mp hplain c (by simp [e]))
  have hnavigate : hasTrigger Family.navigate.triggers
      (lower (typeInto "it's with #a [b] into".toList "e-mail_1".toList)) = false := by decide +kernel
  have hclick : hasTrigger Family.click.triggers
      (lower (typeInto "it's with #a [b] into".toList "e-mail_1".toList)) = false := by decide +kernel
  have hstep := parseStep_typeInto hname hv hline hquotes hnavigate hclick
  have htext : String.ofList (typeInto "it's with #a [b] into".toList "e-mail_1".toList) =
      "type 'it's with #a [b] into' into #e-mail_1" := by decide +kernel
  have htarget : String.ofList ('#' :: "e-mail_1".toList) = "#e-mail_1" := by decide +kernel
  rw [htext, htarget, String.ofList_toList] at hstep
  exact ⟨hname, hv, hline, hquotes, hnavigate, hclick, hstep⟩

/-! ## 4. The field in front of the value -/

/-- What stands from one place to another takes in some of the mark with the name, but not the whole of it and
    the blank before. -/
def Cuts (name : List Char) (start stop : Nat) : Prop :=
  "fill ".length < stop ∧ start < "fill #".length + name.length ∧
    ("fill ".length ≤ start ∨ stop < "fill #".length + name.length)

theorem cuts_iff {start stop : Nat} : Cuts name start stop ↔
    5 < stop ∧ start < 6 + name.length ∧ (5 ≤ start ∨ stop < 6 + name.length) := Iff.rfl

/-- In front of its quotation the value first stands across the field. -/
def BreaksUp (name v : List Char) : Prop :=
  ∃ before between, StandsFirst v (fillLead name) before between ∧ Cuts name before.length (before ++ v).length

theorem breaksUp_iff (h : StandsFirst v (fillLead name) before between) :
    BreaksUp name v ↔ Cuts name before.length (before ++ v).length := by
  constructor
  · rintro ⟨front, behind, hfirst, hcuts⟩
    obtain ⟨rfl, rfl⟩ := hfirst.unique h
    exact hcuts
  · exact fun hcuts => ⟨before, between, h, hcuts⟩

/-- What is left where the mark stands in front of the value. -/
theorem selector?_mark_before (h : IsName name) (hz : name ++ " with ".toList = z ++ v ++ between) :
    selector? ("fill ".toList ++ '#' :: z ++ ' ' :: (between ++ inQuotes v)) = some ('#' :: name) ↔
      name.length ≤ z.length := by
  have hhash := h.hash_notMem
  rw [hz, List.mem_append, List.mem_append, not_or, not_or] at hhash
  have hbegins : z <+: name ++ " with ".toList := by
    rw [hz, List.append_assoc]
    exact List.prefix_append _ _
  rw [List.append_assoc, List.cons_append,
    selector?_eq_name_iff h (by decide) (by simp [inQuotes, hhash]) hbegins rfl]
  exact and_iff_right rfl

/-- What is left where the mark stands in the value. -/
theorem selector?_mark_inside (h : IsName name) (hu : "fill ".toList = before ++ u)
    (hw : name ++ " with ".toList = w ++ between) :
    selector? (before ++ ' ' :: (between ++ inQuotes (u ++ '#' :: w))) = some ('#' :: name) ↔
      u ≠ [] ∧ name.length ≤ w.length := by
  have hfill : '#' ∉ "fill ".toList := by decide
  have hhash := h.hash_notMem
  rw [hu, List.mem_append, not_or] at hfill
  rw [hw, List.mem_append, not_or] at hhash
  have htext : before ++ ' ' :: (between ++ inQuotes (u ++ '#' :: w)) =
      (before ++ ' ' :: (between ++ ['\''])) ++ u ++ '#' :: (w ++ ['\'']) := by simp [inQuotes]
  have hblank : ((before ++ ' ' :: (between ++ ['\''])) ++ u).getLast?.all isBlank = true ↔ u ≠ [] := by
    by_cases hnil : u = []
    · rw [hnil, List.append_nil, List.getLast?_append_of_ne_nil _ (List.cons_ne_nil _ _), ← List.cons_append,
        List.getLast?_concat]
      exact iff_of_false (by decide) fun hne => hne rfl
    · refine iff_of_true ?_ hnil
      rw [List.getLast?_append_of_ne_nil _ hnil, ← List.getLast?_append_of_ne_nil before hnil, ← hu]
      decide
  rw [htext, selector?_eq_name_iff h (by simp [hfill, hhash]) (by decide) ⟨between, hw.symm⟩ rfl, hblank]

/-- What is left where the mark stands behind the value. -/
theorem selector?_mark_behind (h : IsName name) (hs : "fill ".toList = before ++ v ++ s) :
    selector? (before ++ ' ' :: (s ++ '#' :: (name ++ " with ".toList) ++ inQuotes v)) = some ('#' :: name) := by
  have hfill : '#' ∉ "fill ".toList := by decide
  rw [hs, List.mem_append, List.mem_append, not_or, not_or] at hfill
  have htext : before ++ ' ' :: (s ++ '#' :: (name ++ " with ".toList) ++ inQuotes v) =
      (before ++ ' ' :: s) ++ '#' :: ((name ++ " with ".toList) ++ inQuotes v) := by simp
  have hblank : (before ++ ' ' :: s).getLast? = some ' ' := by
    by_cases hnil : s = []
    · rw [hnil, List.getLast?_concat]
    · rw [List.append_cons, List.getLast?_append_of_ne_nil _ hnil, ← List.getLast?_append_of_ne_nil (before ++ v) hnil,
        ← hs]
      rfl
  rw [htext, selector?_eq_name_iff h (by simp [hfill]) (by simp [inQuotes, hfill]) (List.prefix_refl _) rfl,
    hblank]
  exact ⟨rfl, by simp⟩

/-- **The field is found** exactly if the value does not break it up. -/
theorem selector?_fillWith_iff (h : IsName name) (hquoted : IsQuoted (fillLead name) v []) :
    selector? (without (fillWith name v) (some v)) = some ('#' :: name) ↔ ¬ BreaksUp name v := by
  have hlead : fillLead name = "fill ".toList ++ '#' :: (name ++ " with ".toList) := by simp [fillLead_eq]
  have hlength : "fill ".toList.length = 5 := rfl
  have hcases := hquoted.without_cases
  simp only [List.append_nil] at hcases
  rw [fillWith]
  rcases hcases with ⟨before, between, hfirst, e⟩ | ⟨hnowhere, e⟩
  · rw [e, breaksUp_iff hfirst, cuts_iff]
    -- what is left of the field depends on where its mark stands against the value that is taken out
    have hplace := hlead.symm.trans hfirst.place
    rcases append_cons_eq_append_append hplace with ⟨z, rfl, hz⟩ | ⟨u, w, rfl, hu, hw⟩ | ⟨s, rfl, hs⟩
    · rw [selector?_mark_before h hz]
      simp only [List.length_append, List.length_cons, hlength]
      omega
    · rw [selector?_mark_inside h hu hw, ← List.length_pos_iff]
      have hlen := congrArg List.length hu
      simp only [List.length_append, List.length_cons, hlength] at hlen ⊢
      omega
    · refine iff_of_true (selector?_mark_behind h hs) ?_
      have hlen := congrArg List.length hs
      simp only [List.length_append, hlength] at hlen ⊢
      omega
  · refine iff_of_true ?_ ?_
    · have htext : fillLead name ++ inQuotes [' '] =
          "fill ".toList ++ '#' :: ((name ++ " with ".toList) ++ inQuotes [' ']) := by simp [hlead]
      rw [e, htext, selector?_eq_name_iff h (by decide) (by decide) (List.prefix_refl _) rfl]
      exact ⟨rfl, by simp⟩
    · rintro ⟨before, between, hfirst, -⟩
      exact hnowhere ⟨before, between, hfirst.place.symm⟩

theorem value?_fillWith (hquoted : IsQuoted (fillLead name) v []) : value? (fillWith name v) = some v := by
  have hread : valueAfter? "with" ("with ".toList ++ inQuotes v) = some v := hquoted.valueBody?
  have hfound : (search (atWord (valueAfter? "with")) (fillWith name v)).isSome = true := by
    refine isSome_search_iff.mpr ⟨"fill #".toList ++ name ++ " ".toList, "with ".toList ++ inQuotes v, ?_, ?_⟩
    · simp [fillWith, fillLead_eq]
    · rw [List.getLast?_append_of_ne_nil _ (by decide), atWord, if_pos (by decide), hread]
      rfl
  -- whatever the keyword is found behind, it can only be the value
  obtain ⟨u, hu⟩ := Option.isSome_iff_exists.mp hfound
  have huv : u = v :=
    (hquoted.of_search_valueAfter? (show ' ' ∉ "with".toList by decide) (by rwa [List.append_nil])).1
  rw [value?, hu, huv]
  rfl

theorem trim_fillWith : trim (fillWith name v) = fillWith name v := by
  refine trim_eq_self_of_ends (fun c hc => ?_) fun c hc => ?_
  · obtain rfl := Option.some.inj hc
    rfl
  · rw [fillWith, inQuotes, ← List.cons_append, ← List.append_assoc, List.getLast?_concat] at hc
    obtain rfl := Option.some.inj hc
    rfl

/-- **Where the field comes in front of the value**, the value is typed as it is, and into the field of the name
    exactly if it does not break it up. -/
theorem parseStep_fillWith (h : IsName name) (hv : allBlank v = false) (hline : '\n' ∉ v)
    (hquotes : v.any isQuote = false)
    (hnavigate : hasTrigger Family.navigate.triggers (lower (fillWith name v)) = false)
    (hclick : hasTrigger Family.click.triggers (lower (fillWith name v)) = false) :
    ∃ step, parseStep (String.ofList (fillWith name v)) = .ok step ∧ step.action = .type ∧
      step.sentence = String.ofList (fillWith name v) ∧ step.value = some (String.ofList v) ∧
        (step.target = some (String.ofList ('#' :: name)) ↔ ¬ BreaksUp name v) := by
  have hquoted := isQuoted_fillWith h hv hline hquotes
  have hfind : Family.find? (lower (fillWith name v)) = some .type :=
    find?_type hnavigate hclick "fill" (by decide) ⟨_, "", _, rfl, by decide, rfl, rfl⟩
  refine ⟨_, parseStep_entering trim_fillWith hfind (value?_fillWith hquoted), rfl, rfl, rfl, ?_⟩
  rw [target_entering_eq_iff, selector?_fillWith_iff h hquoted]

/-- **A value that is also the name** of its field breaks it up. -/
theorem parseStep_fillWith_email :
    IsName "email".toList ∧ allBlank "email".toList = false ∧ '\n' ∉ "email".toList ∧
      "email".toList.any isQuote = false ∧
      hasTrigger Family.navigate.triggers (lower (fillWith "email".toList "email".toList)) = false ∧
      hasTrigger Family.click.triggers (lower (fillWith "email".toList "email".toList)) = false ∧
      BreaksUp "email".toList "email".toList ∧ ∃ step, parseStep "fill #email with 'email'" = .ok step ∧
        step.value = some "email" ∧ step.target = some "input[type=\"email\"], input[name*=\"email\" i]" := by
  have hname : IsName "email".toList := by decide +kernel
  have hv : allBlank "email".toList = false := by decide +kernel
  have hline : '\n' ∉ "email".toList := by decide +kernel
  have hquotes : "email".toList.any isQuote = false := by decide +kernel
  have hnavigate : hasTrigger Family.navigate.triggers (lower (fillWith "email".toList "email".toList)) = false := by
    decide +kernel
  have hclick : hasTrigger Family.click.triggers (lower (fillWith "email".toList "email".toList)) = false := by
    decide +kernel
  obtain ⟨step, hstep, -, -, hvalue, hiff⟩ := parseStep_fillWith hname hv hline hquotes hnavigate hclick
  have htarget : step.target = some "input[type=\"email\"], input[name*=\"email\" i]" := by
    have hread : (parseStep "fill #email with 'email'").toOption.bind (·.target) =
        some "input[type=\"email\"], input[name*=\"email\" i]" := by decide +kernel
    rwa [show parseStep "fill #email with 'email'" = .ok step from hstep] at hread
  refine ⟨hname, hv, hline, hquotes, hnavigate, hclick, ?_, step, hstep, hvalue, htarget⟩
  by_contra hwhole
  have hother := htarget.symm.trans (hiff.mpr hwhole)
  revert hother
  decide +kernel

end Step

end StepRunner
