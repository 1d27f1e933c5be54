import StepRunner.Proofs.Case.Strategy
import StepRunner.Proofs.Case.Verdict

/-!
# What leaves a case

Running a case gives a result, or no session could be opened for it, or something escapes. `runCase_fault`
tells which, by the exchanges with the browser: what escapes is the last fault of a call that opens or
closes the session or takes the screenshot, if that crashed, or of the stop; or, in a case without a
browser, that of the first sentence that cannot be read. `escaped_of_crash` shows that each of these can
happen.
-/

namespace StepRunner

open Step

/-- Why the first of the sentences that cannot be read cannot. -/
def unreadable? (texts : List String) : Option ReadFault :=
  texts.findSome? fun text => match parseStep text with
    | .ok _ => none
    | .error f => some f

namespace Case

variable {σ α : Type} {e : Executor} {b : Browser σ} {c : TestCase} {d : Drive σ} {xs : List Exchange}
  {r : Except CaseFault α}

/-- What escapes a part that is accounted for, and what it could not open a session for. -/
theorem Accounts.faults (h : Accounts xs r) :
    (∀ m, r = .error (.provision m) ↔ escaping? xs = none ∧ refusal? xs = some m) ∧
      ∀ f, r = .error (.escaped f) ↔ ∃ fault, f = .page fault ∧ escaping? xs = some fault := by
  rcases r with (m | f) | a
  · obtain ⟨hescape, hrefusal⟩ := h
    simp [hescape, hrefusal]
  · obtain ⟨fault, rfl, hescape⟩ := h
    simp [hescape, eq_comm]
  · obtain ⟨hescape, hrefusal⟩ := h
    simp [hescape, hrefusal]

/-- **Reading the steps** says nothing to a browser and ends with the first that cannot be read. -/
theorem does_readSteps (b : Browser σ) (index : Nat) (texts : List String) :
    Does b (fun xs r => xs = [] ∧ r = match unreadable? texts with
      | none => .ok ()
      | some f => .error (.escaped (.read f))) (readSteps index texts) := by
  induction texts generalizing index with
  | nil => exact Does.pure ⟨rfl, rfl⟩
  | cons text rest ih =>
      unfold readSteps unreadable?
      rw [List.findSome?_cons]
      cases parseStep text with
      | error f => exact Does.throw ⟨rfl, rfl⟩
      | ok step => exact Does.note_bind (ih (index + 1))

theorem does_simulate (b : Browser σ) (c : TestCase) :
    Does b (fun xs r => xs = [] ∧
      ∀ f, r = .error f ↔ ∃ g, f = .escaped (.read g) ∧ unreadable? c.steps = some g) (simulate c) := by
  have hread := does_readSteps b 1 c.steps
  cases hu : unreadable? c.steps with
  | some g =>
      rw [hu] at hread
      refine Does.bind hread ?_ (by rintro xs u ⟨-, ⟨⟩⟩)
      rintro - f ⟨rfl, ⟨⟩⟩
      refine ⟨rfl, fun f => ⟨?_, ?_⟩⟩
      · rintro ⟨⟩
        exact ⟨g, rfl, rfl⟩
      · rintro ⟨g', rfl, ⟨⟩⟩
        rfl
  | none =>
      rw [hu] at hread
      refine Does.bind hread (by rintro xs f ⟨-, ⟨⟩⟩) ?_
      rintro - u ⟨rfl, -⟩
      exact Does.note_bind (Does.pure ⟨rfl, fun f => by simp⟩)

end Case

open Case

variable {σ α β : Type} {d : Drive σ} {c : TestCase} {xs : List Exchange}

/-- What a case came to, by its exchanges and the sentences of its steps. -/
structure Contained {α : Type} (d : Drive σ) (c : TestCase) (xs : List Exchange) (r : Except CaseFault α) :
    Prop where
  /-- No session could be opened exactly if a call that opens one was refused, and nothing escapes. -/
  provision : ∀ m, r = .error (.provision m) ↔ escaping? xs = none ∧ refusal? xs = some m
  /-- No step was begun then. -/
  unopened : ∀ m, r = .error (.provision m) → OnlySession xs
  /-- What escapes is a fault that nothing deals with, or that of a sentence which no browser is for. -/
  escaped : ∀ f, r = .error (.escaped f) ↔ (∃ fault, f = .page fault ∧ escaping? xs = some fault) ∨
    ∃ g, f = .read g ∧ needsBrowser c = false ∧ d.cancelled = false ∧ unreadable? c.steps = some g

theorem Contained.congr {r : Except CaseFault α} {r' : Except CaseFault β} (h : Contained d c xs r)
    (hr : ∀ f, r' = .error f ↔ r = .error f) : Contained d c xs r' :=
  ⟨fun m => (hr _).trans (h.provision m), fun m hm => h.unopened m ((hr _).mp hm),
    fun f => (hr _).trans (h.escaped f)⟩

/-- What becomes of the verdict on a case. -/
theorem contained_verdict (e : Executor) (b : Browser σ) (c : TestCase) (d : Drive σ) :
    ∃ xs, Talk b d xs ((verdict e b (strategyFor c) c).run (begun c d)).2 ∧
      Contained d c xs ((verdict e b (strategyFor c) c).run (begun c d)).1 := by
  unfold verdict
  rw [run_bind_get, show (begun c d).cancelled = d.cancelled from rfl]
  cases hgoes : d.cancelled with
  | true =>
      refine ⟨[], .silent rfl rfl, fun m => ⟨by rintro ⟨⟩, by rintro ⟨-, ⟨⟩⟩⟩, by rintro m ⟨⟩, fun f => ?_⟩
      refine ⟨by rintro ⟨⟩, ?_⟩
      rintro (⟨fault, -, ⟨⟩⟩ | ⟨g, -, -, hc, -⟩)
      cases hgoes.symm.trans hc
  | false =>
      rw [if_neg Bool.false_ne_true, strategyFor]
      cases hneeds : needsBrowser c with
      | true =>
          obtain ⟨xs, htalk, haccounts, honly⟩ := does_inBrowser e b c (begun c d)
          obtain ⟨hprovision, hescaped⟩ := haccounts.faults
          refine ⟨xs, ⟨htalk.trace, htalk.answers⟩, hprovision, honly, fun f => (hescaped f).trans ?_⟩
          simp [hneeds]
      | false =>
          obtain ⟨xs, htalk, rfl, hr⟩ := does_simulate b c (begun c d)
          refine ⟨[], ⟨htalk.trace, htalk.answers⟩, fun m => ⟨fun h => ?_, by rintro ⟨-, ⟨⟩⟩⟩,
            fun m _ => by simp [OnlySession], fun f => (hr _).trans ?_⟩
          · obtain ⟨g, ⟨⟩, -⟩ := (hr _).mp h
          · simp [hneeds, hgoes, escaping?]

/-- **What leaves a case** is a result, or that no session could be opened, unless a call that opens or
    closes the session or takes the screenshot crashes, the stop fails, or a sentence cannot be read in a
    case without a browser. -/
theorem runCase_contained (e : Executor) (b : Browser σ) (c : TestCase) (d : Drive σ) :
    ∃ xs, Talk b d xs ((runCase e b c).run d).2 ∧ Contained d c xs ((runCase e b c).run d).1 := by
  obtain ⟨xs, htalk, hcontained⟩ := contained_verdict e b c d
  rw [runCase, run_runCaseBy]
  refine ⟨xs, ?_⟩
  cases hv : (verdict e b (strategyFor c) c).run (begun c d) with
  | mk o d' =>
      rw [hv] at htalk hcontained
      cases o with
      | ok v =>
          rw [run_bind_of_ok hv]
          refine ⟨htalk, hcontained.congr fun f => iff_of_false (fun h => ?_) fun h => ?_⟩ <;> cases h
      | error f =>
          rw [run_bind_of_error hv]
          exact ⟨htalk, hcontained.congr fun g => by simp⟩

/-- **A sentence that cannot be read** leaves no result of a case without a browser. -/
theorem escaped_of_unreadable (e : Executor) (b : Browser σ) {g : ReadFault} (hneeds : needsBrowser c = false)
    (hgoes : d.cancelled = false) (h : unreadable? c.steps = some g) :
    ((runCase e b c).run d).1 = .error (.escaped (.read g)) := by
  obtain ⟨xs, -, hcontained⟩ := contained_verdict e b c d
  have hfault := (hcontained.escaped (.read g)).mpr (.inr ⟨g, rfl, hneeds, hgoes, h⟩)
  rw [runCase, run_runCaseBy, run_bind_of_error (Prod.ext hfault rfl)]

/-- A sentence that waits longer than can be told. -/
def endlessWait : List Char := "Wait ".toList ++ List.replicate 400 '9' ++ " seconds".toList

theorem unreadable?_endlessWait : stepNeedsBrowser (String.ofList endlessWait) = false ∧
    unreadable? [String.ofList endlessWait] = some .amountTooLarge := by
  constructor
  · rw [stepNeedsBrowser, String.toList_ofList]
    decide +kernel
  · rw [unreadable?, List.findSome?_singleton, parseStep, String.toList_ofList]
    decide +kernel

/-- What escapes a case that follows a script. -/
def escapes? (sc : Script) (c : TestCase) : Option StepFault :=
  match ((runCase {} sc.browser c).run { browser := sc.start, now := ⟨0⟩ }).1 with
  | .error (.escaped f) => some f
  | _ => none

/-- **Something escapes** a case whose screenshot crashes, one whose browser crashes when it is launched,
    and one that waits longer than can be told. -/
theorem escaped_of_crash :
    escapes? { page := { turns := { screenshot := [.crash] } } } lookingInVain =
        some (.page (.crashed "screenshot crash")) ∧
      escapes? { failStage := some ⟨.launch, true⟩ } lookingInVain =
        some (.page (.crashed "launch crashed")) ∧
      escapes? {} (caseOf (String.ofList endlessWait)) = some (.read .amountTooLarge) := by
  refine ⟨by decide +kernel, by decide +kernel, ?_⟩
  have hneeds : needsBrowser (caseOf (String.ofList endlessWait)) = false := by
    rw [needsBrowser, caseOf, List.any_cons, unreadable?_endlessWait.1]
    rfl
  rw [escapes?, escaped_of_unreadable {} _ hneeds rfl unreadable?_endlessWait.2]

end StepRunner
