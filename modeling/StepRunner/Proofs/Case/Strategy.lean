import StepRunner.Case.Running
import StepRunner.Proofs.Step.Trigger

/-!
# What runs in a browser

A sentence that is read as an interaction with the page wants a browser. The words by which a case gets
one are a list of their own, sought in the sentence as it was written, not in lower case.

* `browser_of_interaction`: a case with an interaction runs in a browser and is never passed as
  simulated, unless the sentence is `Overlooked`: all the interaction words that stand in it are
  missing from the list, or stand right behind a dotted capital i;
* `simulated_of_overlooked`: for such a sentence the case may be simulated.
-/

namespace StepRunner

open Step Text

/-! ## 1. Sentences that interact -/

/-- The families whose sentences act on the page, or go to another. -/
def Step.Family.interacts : Family → Bool
  | .wait | .assert => false
  | .navigate | .click | .type | .select | .scroll | .hover => true

/-- The words of these families that do not speak of a page. -/
def overlookedWords : List String := ["pick", "swipe", "mouseover"]

/-- The sentence, in lower case and without blanks at its ends, has the word in it. -/
def Reads (text word : String) : Prop := hasTrigger [word] (lower (trim text.toList)) = true

instance (text word : String) : Decidable (Reads text word) := by
  unfold Reads
  infer_instance

/-- The sentence has words of interaction in it, and neither they nor an address show in it as it was
    written. -/
structure Overlooked (text : String) : Prop where
  interacts : ∃ f : Family, f.interacts = true ∧ ∃ word ∈ f.triggers, Reads text word
  hidden : ∀ f : Family, f.interacts = true → ∀ word ∈ f.triggers, Reads text word →
    word ∈ overlookedWords ∨ StandsBehindDotted word text.toList
  no_address : hasLiteral "http" text.toList = false

theorem spelled_of_mem_triggers (f : Family) {word : String} (h : word ∈ f.triggers) :
    Spelled word.toList ∧ word.toList ≠ [] := by
  revert word
  cases f <;> decide

theorem mem_words_of_interacts {f : Family} (hf : f.interacts = true) {word : String}
    (h : word ∈ f.triggers) : word ∈ overlookedWords ∨ word ∈ browserWords := by
  revert word
  cases f with
  | wait => cases hf
  | assert => cases hf
  | navigate => decide
  | click => decide
  | type => decide
  | select => decide
  | scroll => decide
  | hover => decide

theorem stepNeedsBrowser_of_word {word text : String} (hw : word ∈ browserWords)
    (h : hasTrigger [word] text.toList = true) : stepNeedsBrowser text = true := by
  rw [hasTrigger_iff] at h
  obtain ⟨before, rest, e, hs, w, hm, hbeg⟩ := h
  obtain rfl := List.mem_singleton.mp hm
  have hall : hasTrigger browserWords text.toList = true :=
    hasTrigger_iff.mpr ⟨before, rest, e, hs, w, hw, hbeg⟩
  rw [stepNeedsBrowser, hall, Bool.true_or]

theorem reads_of_find? {text : String} {f : Family}
    (h : Family.find? (lower (trim text.toList)) = some f) : ∃ word ∈ f.triggers, Reads text word := by
  have ht : hasTrigger f.triggers (lower (trim text.toList)) = true := by
    unfold Family.find? at h
    exact List.find?_some (p := fun f : Family => hasTrigger f.triggers _) h
  obtain ⟨before, rest, e, hs, word, hm, hbeg⟩ := hasTrigger_iff.mp ht
  exact ⟨word, hm, hasTrigger_iff.mpr ⟨before, rest, e, hs, word, List.mem_singleton_self _, hbeg⟩⟩

/-- A sentence of interaction that does not speak of a page is overlooked. -/
theorem overlooked_of_not_stepNeedsBrowser {text : String} {f : Family}
    (hf : Family.find? (lower (trim text.toList)) = some f) (hi : f.interacts = true)
    (h : stepNeedsBrowser text = false) : Overlooked text := by
  refine ⟨⟨f, hi, reads_of_find? hf⟩, fun f hi word hm ht => ?_, (Bool.or_eq_false_iff.mp h).2⟩
  rcases mem_words_of_interacts hi hm with ho | hb
  · exact .inl ho
  · obtain ⟨hw, hne⟩ := spelled_of_mem_triggers f hm
    rcases hasTrigger_of_lower hw hne ht with hraw | hdot
    · have hneeds := stepNeedsBrowser_of_word hb (hasTrigger_of_trim hw hraw)
      rw [h] at hneeds
      cases hneeds
    · exact .inr (hdot.of_trim hw)

/-! ## 2. What a computation can give -/

namespace Case

variable {σ α β : Type}

/-- All that a part of running a case gives, if it gives something, is of a kind. -/
def Gives (P : α → Prop) (m : Casing σ α) : Prop := ∀ d a, (m.run d).1 = .ok a → P a

theorem Gives.pure {P : α → Prop} {a : α} (h : P a) : Gives P (Pure.pure a : Casing σ α) := by
  rintro d _ ⟨⟩
  exact h

theorem Gives.throw {P : α → Prop} (f : CaseFault) : Gives P (throw f : Casing σ α) := by
  rintro d a ⟨⟩

theorem Gives.bind {P : α → Prop} {Q : β → Prop} {m : Casing σ α} {next : α → Casing σ β}
    (hm : Gives P m) (hn : ∀ a, P a → Gives Q (next a)) : Gives Q (m >>= next) := by
  intro d b h
  change ((ExceptT.bindCont next (m.run d).1).run (m.run d).2).1 = .ok b at h
  cases hr : (m.run d).1 with
  | ok a =>
      rw [hr] at h
      exact hn a (hm d a hr) _ b h
  | error f =>
      rw [hr] at h
      cases h

/-- Nothing is known of the result of the first part. -/
theorem Gives.after {Q : β → Prop} {m : Casing σ α} {next : α → Casing σ β}
    (hn : ∀ a, Gives Q (next a)) : Gives Q (m >>= next) :=
  Gives.bind (P := fun _ => True) (fun _ _ _ => trivial) fun a _ => hn a

/-- The outcome of a part, caught. -/
theorem Gives.caught {P : α → Prop} {m : Casing σ α} (hm : Gives P m) :
    Gives (fun r => ∀ a, r = .ok a → P a) (ExceptT.lift m.run : Casing σ (Except CaseFault α)) := by
  rintro d _ ⟨⟩ a h
  exact hm d a h

/-! ## 3. Verdicts of a browser -/

variable {e : Executor} {b : Browser σ} {c : TestCase}

theorem gives_inSession {settings : Settings} {P : α → Prop} {use : Casing σ α} (h : Gives P use) :
    Gives P (inSession b settings use) := by
  unfold inSession
  refine Gives.after fun _ => Gives.bind h.caught fun r hr => ?_
  cases r with
  | ok a => exact Gives.after fun _ => Gives.pure (hr a rfl)
  | error f => exact Gives.after fun _ => Gives.throw f

theorem gives_failure (f : StepFault) : Gives (fun v => v.status = .fail) (failure b c f) := by
  have hshown (m : String) (kind : ErrorKind) : Gives (fun v => v.status = .fail) (do
      let screenshot ← capture b
      return ({ status := .fail, message := m, error := some kind, screenshot } : Verdict)) :=
    Gives.after fun _ => Gives.pure rfl
  cases f with
  | failed kind m =>
      refine Gives.after fun _ => ?_
      dsimp only
      split
      · exact Gives.after fun _ => Gives.pure rfl
      · exact hshown m kind
  | page f => exact Gives.after fun _ => Gives.after fun _ => hshown _ _
  | url f => exact Gives.after fun _ => Gives.after fun _ => hshown _ _
  | read f => exact Gives.after fun _ => Gives.after fun _ => hshown _ _

theorem gives_failureIn :
    Gives (fun v? => ∀ v, v? = some v → v.status = .fail) (failureIn e b c) := by
  refine Gives.after fun r => ?_
  cases r with
  | ok _ => exact Gives.pure nofun
  | error f =>
      refine (gives_failure f).bind fun v hv => Gives.pure ?_
      rintro _ ⟨⟩
      exact hv

/-- In a browser a case fails, or all its steps passed. -/
theorem gives_inBrowser : Gives (fun v => v.status = .fail ∨ v = success c) (inBrowser e b c) := by
  refine (gives_inSession gives_failureIn).bind fun v? hv => ?_
  cases v? with
  | some v => exact Gives.pure (.inl (hv v rfl))
  | none => exact Gives.after fun _ => Gives.pure (.inr rfl)

theorem gives_verdict :
    Gives (fun v => v.status = .fail ∨ v = success c) (verdict e b .browser c) := by
  refine Gives.after fun d => ?_
  split
  · exact Gives.after fun _ => Gives.pure (.inl rfl)
  · exact gives_inBrowser

theorem success_ne_simulated : (success c).message ≠ simulatedMessage := by
  intro h
  have hhead : (success c).message.toList.head? = simulatedMessage.toList.head? := by rw [h]
  simp [success, simulatedMessage] at hhead

end Case

/-! ## 4. Cases with an interaction -/

/-- The case is passed without a browser. -/
def CaseResult.Simulated (r : CaseResult) : Prop :=
  r.status = .pass ∧ r.message = some Case.simulatedMessage

variable {σ : Type} {c : TestCase}

/-- In a browser no case is passed as simulated. -/
theorem not_simulated_of_browser (e : Executor) (b : Browser σ) :
    Case.Gives (fun r => ¬ r.Simulated) (runCaseBy e b .browser c) := by
  refine Case.Gives.after fun _ => Case.Gives.after fun _ => Case.Gives.after fun _ =>
    Case.gives_verdict.bind fun v hv => Case.Gives.after fun _ => Case.Gives.pure ?_
  rintro ⟨hpass, hm⟩
  rcases hv with hfail | rfl
  · cases hfail.symm.trans hpass
  · exact Case.success_ne_simulated (Option.some.inj hm)

/-- **A case with an interaction** runs in a browser and is never passed as simulated, unless the
    interaction is overlooked. -/
theorem browser_or_overlooked {text : String} {f : Family} (ht : text ∈ c.steps)
    (hf : Family.find? (lower (trim text.toList)) = some f) (hi : f.interacts = true) :
    (needsBrowser c = true ∧
      ∀ (e : Executor) (b : Browser σ), Case.Gives (fun r => ¬ r.Simulated) (runCase e b c)) ∨
    Overlooked text := by
  cases h : stepNeedsBrowser text with
  | false => exact .inr (overlooked_of_not_stepNeedsBrowser hf hi h)
  | true =>
      have hneeds : needsBrowser c = true := List.any_eq_true.mpr ⟨text, ht, h⟩
      refine .inl ⟨hneeds, fun e b => ?_⟩
      rw [runCase, strategyFor, if_pos hneeds]
      exact not_simulated_of_browser e b

/-- A case of one step. -/
def caseOf (text : String) : TestCase := { id := "c1", title := "One step", steps := [text] }

/-- A case of which one step reads as an interaction with the page runs in a browser. -/
theorem browser_or_overlooked_click :
    Family.find? (lower (trim "Click 'Save'".toList)) = some .click ∧
      needsBrowser (caseOf "Click 'Save'") = true := by
  have hf : Family.find? (lower (trim "Click 'Save'".toList)) = some .click := by decide +kernel
  rcases browser_or_overlooked (σ := Unit) (c := caseOf "Click 'Save'") List.mem_cons_self hf rfl with
    ⟨h, -⟩ | h
  · exact ⟨hf, h⟩
  · rcases h.hidden .click rfl "click" (by decide) (by decide +kernel) with ho | hdot
    · exact absurd ho (by decide)
    · obtain ⟨before, rest, e, -⟩ := hdot
      have hm : 'İ' ∈ "Click 'Save'".toList := by simp [e]
      exact absurd hm (by decide)

/-- A browser that does whatever it is asked. -/
def obedient : Browser Unit := { respond := fun _ _ => ({}, ()) }

/-- The words that no case gets a browser by, and a word behind a dotted capital i: the step reads as an
    interaction, and **the case is passed as simulated**. -/
theorem simulated_of_overlooked :
    ∀ s ∈ [("Pick Blue", Family.select), ("Swipe up", .scroll), ("Mouseover the menu", .hover),
      ("İclick", .click)],
    Family.find? (lower (trim s.1.toList)) = some s.2 ∧ needsBrowser (caseOf s.1) = false ∧
      (((runCase {} obedient (caseOf s.1)).run { browser := (), now := ⟨0⟩ }).1.toOption.map
        fun r => (r.status, r.message)) = some (.pass, some Case.simulatedMessage) := by
  decide +kernel

end StepRunner
