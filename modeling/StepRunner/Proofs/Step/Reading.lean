import StepRunner.Proofs.Step.Amount
import StepRunner.Proofs.Step.Selector
import StepRunner.Step.Parser

/-!
# Every sentence is a step

`read_or_too_much`: a sentence, or none at all, is read as a step that has all that its action needs
(`Formed`), except where it asks to wait for an amount of time that cannot be told (`AsksTooMuch`), and
then it is not read.
-/

namespace StepRunner.Step

open Text

variable {cs target : List Char} {f : Family}

/-! ## 1. What a sentence acts on -/

/-- **A selector is not empty.** -/
theorem ne_nil_of_selector? (h : selector? cs = some target) : target ≠ [] := by
  rintro rfl
  rcases head?_of_selector? h with hhead | hhead | hhead <;> cases hhead

/-- The locator of a field is one of an input. -/
theorem head?_inputField (cs : List Char) : (inputField cs).toList.head? = some 'i' := by
  have hlocators : ∀ field ∈ formFields, field.locator.toList.head? = some 'i' := by decide +kernel
  unfold inputField
  cases hf : formFields.find? fun field => field.isNamedIn cs with
  | none => rfl
  | some field => exact hlocators field (List.mem_of_find?_eq_some hf)

/-- A field of a form has a locator. -/
theorem inputField_ne (cs : List Char) : inputField cs ≠ "" := by
  intro hempty
  have hhead := head?_inputField cs
  rw [hempty] at hhead
  cases hhead

/-- A list to choose from has a locator. -/
theorem dropdownField_ne_nil (cs : List Char) : dropdownField cs ≠ [] := by
  unfold dropdownField
  split
  · decide
  · split
    · decide
    · dsimp only
      split
      · decide
      · next h => exact fun hnil => h (List.isEmpty_iff.mpr hnil)

/-- What is scrolled to is one of the directions. -/
theorem scrollTarget_mem (cs : List Char) : scrollTarget cs ∈ directions := by
  unfold scrollTarget
  cases hd : directions.find? fun d => hasWord [d] (lower cs) with
  | none => decide
  | some d => exact List.mem_of_find?_eq_some hd

theorem ofList_ne (h : cs ≠ []) : String.ofList cs ≠ "" := by
  intro he
  exact h (String.ofList_injective (he.trans String.ofList_nil.symm))

/-! ## 2. Steps -/

/-- The step has all that its action needs. -/
structure Formed (cs : List Char) (step : ParsedStep) : Prop where
  sentence : step.sentence = String.ofList cs
  waits : step.action = .wait → step.timeout.isSome = true
  scrolls : step.action = .scroll → ∃ direction ∈ directions, step.target = some direction
  acts : step.action = .type ∨ step.action = .select → ∃ target, step.target = some target ∧ target ≠ ""

/-- The text is that of a wait, for an amount of time that cannot be told. -/
def AsksTooMuch (cs : List Char) : Prop :=
  Family.find? (lower cs) = some .wait ∧
    ∃ a, search (fun _ => amountHere?) cs = some a ∧ a.IsBeyond

theorem parseAs_of_ne_wait (h : f ≠ .wait) : ∃ step, parseAs f cs = .ok step ∧ Formed cs step := by
  cases f with
  | wait => exact absurd rfl h
  | navigate => exact ⟨_, rfl, rfl, nofun, nofun, nofun⟩
  | click => exact ⟨_, rfl, rfl, nofun, nofun, nofun⟩
  | hover => exact ⟨_, rfl, rfl, nofun, nofun, nofun⟩
  | assert => exact ⟨_, rfl, rfl, nofun, nofun, nofun⟩
  | scroll => exact ⟨_, rfl, rfl, nofun, fun _ => ⟨_, scrollTarget_mem cs, rfl⟩, nofun⟩
  | type =>
      refine ⟨_, rfl, rfl, nofun, nofun, fun _ => ⟨_, rfl, ?_⟩⟩
      cases hs : selector? (without cs (value? cs)) with
      | none => exact inputField_ne _
      | some target => exact ofList_ne (ne_nil_of_selector? hs)
  | select =>
      refine ⟨_, rfl, rfl, nofun, nofun, fun _ => ⟨_, rfl, ofList_ne ?_⟩⟩
      cases hs : selector? (without cs (value? cs)) with
      | none => exact dropdownField_ne_nil _
      | some target => exact ne_nil_of_selector? hs

theorem formed_fallback : Formed cs (fallback cs) := ⟨rfl, nofun, nofun, nofun⟩

/-- **A sentence without blanks at its ends** is read, or asks for too much. -/
theorem parseTrimmed_cases (cs : List Char) :
    AsksTooMuch cs ∧ parseTrimmed cs = .error .amountTooLarge ∨
      ¬ AsksTooMuch cs ∧ ∃ step, parseTrimmed cs = .ok step ∧ Formed cs step := by
  unfold parseTrimmed AsksTooMuch
  cases hf : Family.find? (lower cs) with
  | none =>
      refine .inr ⟨?_, _, rfl, formed_fallback⟩
      intro h
      cases h.1
  | some f =>
      dsimp only
      by_cases hwait : f = .wait
      · subst hwait
        rw [and_iff_right rfl, ← amount?_eq_error_iff, parseAs.eq_def]
        cases amount? cs with
        | error fault => exact .inl ⟨rfl, rfl⟩
        | ok t =>
            refine .inr ⟨nofun, _, rfl, rfl, fun _ => rfl, nofun, ?_⟩
            intro h
            rcases h with h | h <;> cases h
      · refine .inr ⟨?_, parseAs_of_ne_wait hwait⟩
        intro h
        exact hwait (Option.some.inj h.1)

/-- **Every sentence is read**, and no sentence as well, as a step that has all that its action needs,
    or else it asks for too much and is not read. -/
theorem read_or_too_much (instruction : Option String) :
    AsksTooMuch (trim (instruction.getD "").toList) ∧
        parseInstruction instruction = .error .amountTooLarge ∨
      ¬ AsksTooMuch (trim (instruction.getD "").toList) ∧
        ∃ step, parseInstruction instruction = .ok step ∧
          Formed (trim (instruction.getD "").toList) step :=
  parseTrimmed_cases _

/-- A sentence that waits for so many seconds that they cannot be told. -/
def longWait : List Char := "wait ".toList ++ List.replicate 400 '9' ++ " seconds".toList

/-- **A sentence that is not read.** -/
theorem parseInstruction_longWait :
    parseInstruction (some (String.ofList longWait)) = .error .amountTooLarge := by
  rw [parseInstruction, parseStep, Option.getD_some, String.toList_ofList]
  decide +kernel

end StepRunner.Step
