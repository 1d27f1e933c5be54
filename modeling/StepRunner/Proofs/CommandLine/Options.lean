import StepRunner.CommandLine.Options

/-!
# Words of a command line that choose cases

A long option with its value in one word is read as such, whatever the value looks like (`classify_longWord`). So
there is a command line for every suite and every choice of its cases (`readOptions_caseWords`).
-/

namespace StepRunner.CommandLine

open Text

variable {s value : String} {o : Opt}

/-- The word of a long option with its value. -/
def longWord (name value : String) : String := name ++ "=" ++ value

theorem equals_mem_longWord {name : String} : '=' ∈ (longWord name value).toList := by
  simp [longWord]

theorem lookup_spellings_eq_none (h : '=' ∈ s.toList) : Opt.spellings.lookup s = none := by
  have hfree : ∀ e ∈ Opt.spellings, '=' ∉ e.1.toList := by decide
  rw [List.lookup_eq_none_iff]
  exact fun e he => bne_iff_ne.mpr fun heq => hfree e he (heq ▸ h)

/-- A long option with its value is read as such. -/
theorem classify_longWord {name : String} (hname : '=' ∉ name.toList)
    (hlong : ∃ c rest, name.toList = '-' :: c :: rest) (ho : Opt.spellings.lookup name = some o) :
    classify (longWord name value) = .ok (.option o (some value)) := by
  have hchars : (longWord name value).toList = name.toList ++ '=' :: value.toList := by
    simp [longWord]
  have hsplit : splitValue (longWord name value).toList = (name.toList, some value) := by
    have hstop : ∀ c ∈ name.toList, (c != '=') = true := by
      rintro c hc
      exact bne_iff_ne.mpr fun e => hname (e ▸ hc)
    unfold splitValue
    rw [if_pos (by simpa using equals_mem_longWord), hchars, List.takeWhile_append_of_pos hstop,
      List.dropWhile_append_of_pos hstop]
    simp
  obtain ⟨c, rest, hcs⟩ := hlong
  have hhead : ¬ ((longWord name value).toList.head? ≠ some '-' ∨ (longWord name value).toList.length = 1) := by
    rw [hchars, hcs]
    simp
  unfold classify
  dsimp only
  rw [hsplit]
  dsimp only
  rw [if_neg hhead, lookup_spellings_eq_none equals_mem_longWord, String.ofList_toList, ho]

/-- The words that name a suite and choose cases of it. -/
def caseWords (suite : String) (ids : List String) : List String :=
  longWord "--suite" suite :: ids.map (longWord "--case")

theorem classifyAll_cons (hs : s ≠ "--") {word : Word} (h : classify s = .ok word) (rest : List String) :
    classifyAll (s :: rest) = (classifyAll rest).map (word :: ·) := by
  rw [classifyAll, if_neg hs, h]
  show (classifyAll rest >>= fun words => pure (word :: words)) = _
  cases classifyAll rest <;> rfl

theorem longWord_ne (name : String) : longWord name value ≠ "--" := by
  intro h
  have hmem := @equals_mem_longWord value name
  rw [h] at hmem
  exact absurd hmem (by decide)

theorem classifyAll_caseWords (suite : String) (ids : List String) : classifyAll (caseWords suite ids) =
    .ok (.option .suite (some suite) :: ids.map fun id => .option .caseId (some id)) := by
  have hcases : classifyAll (ids.map (longWord "--case")) =
      .ok (ids.map fun id => .option .caseId (some id)) := by
    induction ids with
    | nil => rfl
    | cons id rest ih =>
        rw [List.map_cons, classifyAll_cons (longWord_ne _)
          (classify_longWord (o := .caseId) (by decide) ⟨_, _, rfl⟩ (by decide)), ih]
        rfl
  rw [caseWords, classifyAll_cons (longWord_ne _)
    (classify_longWord (o := .suite) (by decide) ⟨_, _, rfl⟩ (by decide)), hcases]
  rfl

theorem readWords_caseIds (p : Progress) (ids : List String) :
    readWords p (ids.map fun id => .option .caseId (some id)) =
      .ok { p with options := { p.options with cases := p.options.cases ++ ids } } := by
  induction ids generalizing p with
  | nil => rw [List.append_nil]; rfl
  | cons id rest ih =>
      show readWords { p with options := { p.options with cases := p.options.cases ++ [id] }
                              hasSuite := p.hasSuite || false } _ = _
      rw [ih, Bool.or_false]
      dsimp only
      rw [List.append_assoc, List.singleton_append]

/-- **There is a command line for every choice of cases**, whatever the ids look like. -/
theorem readOptions_caseWords (suite : String) (ids : List String) :
    readOptions (caseWords suite ids) = .options { suite, cases := ids } := by
  have hread : readWords {} (.option .suite (some suite) :: ids.map fun id => .option .caseId (some id)) =
      .ok { options := { suite, cases := ids }, hasSuite := true } :=
    readWords_caseIds { options := { suite }, hasSuite := true } ids
  unfold readOptions
  rw [classifyAll_caseWords]
  dsimp only
  rw [hread]
  rfl

end StepRunner.CommandLine
