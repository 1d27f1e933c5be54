import StepRunner.Proofs.Case.Session

/-!
# The verdict on a case in a browser

`Ends` tells how a case ends and which calls it makes: none if the run is cancelled before it, and
otherwise those that open the session, those of its course, a screenshot if it failed other than by being
cancelled, and those that close the session. `verdict_of_ends` is what the result of a case says about
that.
-/

namespace StepRunner

namespace Case

variable {σ α : Type} {b : Browser σ} {e : Executor} {c : TestCase} {d d' d₀ d₁ : Drive σ}
  {x y : Ending} {calls calls' : List Call} {made : List (List Call)}

/-! ## 1. How a case ends -/

/-- The moment at which a case begins. -/
def begun (c : TestCase) (d : Drive σ) : Drive σ :=
  { d with log := [⟨d.now, "Starting test case " ++ c.id ++ ": " ++ c.title⟩] }

/-- The calls that document an ending. -/
def Ending.documenting (x : Ending) : List Call := if x.fault?.isSome then [.screenshot] else []

/-- The kind of error of an ending. -/
def Ending.error? : Ending → Option ErrorKind
  | .passed => none
  | .unstarted | .cancelled _ => some .cancelled
  | .failed _ f => some f.kind
  | .unmet f => some f.kind

/-- **How a case in a browser ends**, and the calls that are made in all. -/
inductive Ends (e : Executor) (b : Browser σ) (c : TestCase) (d : Drive σ) : Ending → List Call → Prop where
  | unstarted (h : d.cancelled = true) : Ends e b c d .unstarted []
  | session {d₀ d₁ : Drive σ} {made : List (List Call)} {x : Ending} (h : d.cancelled = false)
      (hopen : (openSession b e.settings).run (begun c d) = (.ok (), d₀))
      (hcourse : Course e b c.expectedResult 1 c.steps d₀ made x d₁) :
      Ends e b c d x (openingCalls e.settings ++ made.flatten ++ x.documenting ++ closingCalls)

/-- **There is one ending.** -/
theorem Ends.unique (h : Ends e b c d x calls) (h' : Ends e b c d y calls') : x = y ∧ calls = calls' := by
  cases h with
  | unstarted hcancelled =>
      cases h' with
      | unstarted => exact ⟨rfl, rfl⟩
      | session h => cases hcancelled.symm.trans h
  | session hgoes hopen hcourse =>
      cases h' with
      | unstarted h => cases hgoes.symm.trans h
      | session _ hopen' hcourse' =>
          cases hopen.symm.trans hopen'
          obtain ⟨rfl, rfl, -⟩ := hcourse.unique hcourse'
          exact ⟨rfl, rfl⟩

/-! ## 2. What a session leaves -/

/-- What gives something in a session was done between its opening and its closing. -/
theorem inSession_eq_ok {settings : Settings} {use : Casing σ α} {a : α}
    (h : (inSession b settings use).run d = (.ok a, d')) : ∃ d₀ d₁,
      (openSession b settings).run d = (.ok (), d₀) ∧ use.run d₀ = (.ok a, d₁) ∧
      (closeSession b [.context, .browser]).run d₁ = (.ok (), d') := by
  obtain ⟨⟨⟩, d₀, hopen, h⟩ := run_bind_eq_ok.mp h
  obtain ⟨o, d₁, huse, h⟩ := run_bind_eq_ok.mp h
  have huse : use.run d₀ = (o, d₁) := by
    cases huse
    rfl
  cases o with
  | ok a' =>
      obtain ⟨⟨⟩, d₂, hclose, h⟩ := run_bind_eq_ok.mp h
      cases h
      exact ⟨d₀, d₁, hopen, huse, hclose⟩
  | error f =>
      obtain ⟨⟨⟩, d₂, -, h⟩ := run_bind_eq_ok.mp h
      cases h

theorem trace_openSession {settings : Settings} (h : (openSession b settings).run d = (.ok (), d')) :
    d'.trace = d.trace ++ openingCalls settings := by
  obtain ⟨xs, htalk, -, -, hcalls⟩ := does_openSession b settings d
  rw [h] at htalk hcalls
  rw [htalk.trace, hcalls rfl]

theorem trace_closeSession (h : (closeSession b [.context, .browser]).run d = (.ok (), d')) :
    d'.trace = d.trace ++ closingCalls := by
  obtain ⟨xs, htalk, hcloses⟩ := does_closeSession b [.context, .browser] d
  rw [h] at htalk hcloses
  rw [htalk.trace, hcloses.calls rfl]
  rfl

/-! ## 3. Verdicts -/

/-- The verdict on a case is that on its ending. -/
structure FitsEnding (v : Verdict) (x : Ending) : Prop where
  status : v.status = .pass ↔ x = .passed
  error : v.error = x.error?
  screenshot : v.screenshot ≠ none → x.fault?.isSome = true

/-- What is known of an ending whose steps came to a fault. -/
theorem Ending.of_error {f : StepFault} (h : x.outcome = .error f)
    (hkind : ∀ f, x.fault? = some f → f.kind ≠ .cancelled) :
    x ≠ .passed ∧ x.error? = some f.kind ∧ Case.documenting f = x.documenting ∧
      (f.kind ≠ .cancelled → x.fault?.isSome = true) := by
  cases x with
  | passed => cases h
  | unstarted => cases h
  | cancelled step =>
      cases h
      exact ⟨nofun, rfl, rfl, fun hne => absurd rfl hne⟩
  | failed step g =>
      cases h
      exact ⟨nofun, rfl, if_neg (hkind f rfl), fun _ => rfl⟩
  | unmet g =>
      cases h
      exact ⟨nofun, rfl, if_neg (hkind f rfl), fun _ => rfl⟩

/-- **What is found of the course of the steps**: where there is no failure, the case passed. -/
theorem failureIn_eq_ok {v? : Option Verdict} (h : (failureIn e b c).run d = (.ok v?, d')) :
    ∃ made x d₁, Course e b c.expectedResult 1 c.steps d made x d₁ ∧ x ≠ .unstarted ∧
      (∀ call ∈ made.flatten, call.isOfPage = true) ∧ (∀ f, x.fault? = some f → f.kind ≠ .cancelled) ∧
      d'.trace = d.trace ++ (made.flatten ++ x.documenting) ∧ FitsEnding (v?.getD (success c)) x := by
  obtain ⟨made, x, d₁, hsteps, hcourse, hx, hpage, hkind⟩ :=
    course_of_steps e b c.expectedResult 1 c.steps d
  refine ⟨made, x, d₁, hcourse, hx, hpage, hkind, ?_⟩
  obtain ⟨o, d₂, hlift, h⟩ := run_bind_eq_ok.mp h
  have hlift : (attemptSteps e b c).run d = (o, d₂) := by
    cases hlift
    rfl
  cases hsteps.symm.trans hlift
  cases ho : x.outcome with
  | ok u =>
      rw [ho] at h
      cases h
      cases x with
      | passed =>
          refine ⟨?_, Iff.intro (fun _ => rfl) fun _ => rfl, rfl, nofun⟩
          rw [hcourse.trace]
          simp [Ending.documenting, Ending.fault?]
      | unstarted => exact absurd rfl hx
      | cancelled | failed | unmet => cases ho
  | error f =>
      rw [ho] at h
      obtain ⟨v, d₃, hfailure, h⟩ := run_bind_eq_ok.mp h
      cases h
      obtain ⟨hne, herror, hdocumenting, hshot⟩ := Ending.of_error ho hkind
      obtain ⟨xs, htalk, hdocuments⟩ := does_failure b c f d₁
      rw [hfailure] at htalk hdocuments
      obtain ⟨hstatus, hverror, hscreenshot⟩ := hdocuments.verdict v rfl
      refine ⟨?_, ?_, hverror.trans herror.symm, fun hs => hshot (hscreenshot hs)⟩
      · rw [htalk.trace, hdocuments.calls, hcourse.trace, hdocumenting, List.append_assoc]
      · refine iff_of_false (fun hpass => ?_) hne
        cases hstatus.symm.trans hpass

/-- **The verdict of a session** is that on the ending of the case. -/
theorem inBrowser_eq_ok {v : Verdict} (hgoes : d.cancelled = false)
    (h : (inBrowser e b c).run (begun c d) = (.ok v, d')) : ∃ x calls, Ends e b c d x calls ∧
      x ≠ .unstarted ∧ d'.trace = d.trace ++ calls ∧ FitsEnding v x ∧
      calls.count .screenshot = (if x.fault?.isSome then 1 else 0) ∧
      ∀ f, x.fault? = some f → f.kind ≠ .cancelled := by
  obtain ⟨v?, d₂, hsession, h⟩ := run_bind_eq_ok.mp h
  obtain ⟨d₀, d₁, hopen, huse, hclose⟩ := inSession_eq_ok hsession
  obtain ⟨made, x, d₃, hcourse, hx, hpage, hkind, htrace, hfits⟩ := failureIn_eq_ok huse
  have hdone : d'.trace = d₂.trace ∧ v = v?.getD (success c) := by
    cases v? <;> cases h <;> exact ⟨rfl, rfl⟩
  refine ⟨x, _, .session hgoes hopen hcourse, hx, ?_, hdone.2 ▸ hfits, ?_, hkind⟩
  · rw [hdone.1, trace_closeSession hclose, htrace, trace_openSession hopen]
    simp only [List.append_assoc]
    rfl
  · have hnone : made.flatten.count .screenshot = 0 := by
      refine List.count_eq_zero.mpr fun hm => ?_
      cases hpage _ hm
    rw [List.count_append, List.count_append, List.count_append, hnone, Ending.documenting]
    cases x.fault?.isSome <;> rfl

end Case

open Case

variable {σ : Type} {e : Executor} {b : Browser σ} {c : TestCase} {d d' : Drive σ} {r : CaseResult}

theorem ErrorKind.name_inj {k k' : ErrorKind} : k.name = k'.name ↔ k = k' := by
  refine ⟨fun h => ?_, fun h => by rw [h]⟩
  revert h
  cases k <;> cases k' <;> decide

/-- A case is begun, and its result drawn up from the verdict. -/
theorem run_runCaseBy (e : Executor) (b : Browser σ) (strategy : Strategy) (c : TestCase) (d : Drive σ) :
    (runCaseBy e b strategy c).run d = (verdict e b strategy c >>= fun v => getThe (Drive σ) >>=
      fun d' => pure (resultOf d.now d'.now d'.log v)).run (begun c d) := rfl

/-- **The result of a case in a browser** tells how the case ended: it is a pass exactly if all steps were
    carried out and the expected outcome was found, with no cancellation before the case or any of its
    steps. What was called is what the ending says, with one screenshot exactly if a step failed or the
    outcome was not found. There is an error exactly if the case did not pass; it is that of a
    cancellation exactly if the case was cancelled, and otherwise the kind of what failed. -/
theorem verdict_of_ends (h : (runCaseBy e b .browser c).run d = (.ok r, d')) :
    ∃ x calls, Ends e b c d x calls ∧ (∀ y calls', Ends e b c d y calls' → y = x ∧ calls' = calls) ∧
      d'.trace = d.trace ++ calls ∧ calls.count .screenshot = (if x.fault?.isSome then 1 else 0) ∧
      (r.status = .pass ↔ x = .passed) ∧ (r.error = none ↔ x = .passed) ∧
      (r.error = some ErrorKind.cancelled.name ↔ x = .unstarted ∨ ∃ step, x = .cancelled step) ∧
      (∀ f, x.fault? = some f → r.error = some f.kind.name) ∧
      (r.screenshot ≠ none → x.fault?.isSome = true) := by
  rw [run_runCaseBy] at h
  obtain ⟨v, d₁, hverdict, hresult⟩ := run_bind_eq_ok.mp h
  rw [run_bind_get] at hresult
  cases hresult
  rw [verdict, run_bind_get, show (begun c d).cancelled = d.cancelled from rfl] at hverdict
  -- how the case ends, whether or not it is begun
  obtain ⟨x, calls, hends, htrace, hfits, hcount, hkind⟩ : ∃ x calls, Ends e b c d x calls ∧
      d'.trace = d.trace ++ calls ∧ FitsEnding v x ∧
      calls.count .screenshot = (if x.fault?.isSome then 1 else 0) ∧
      ∀ f, x.fault? = some f → f.kind ≠ .cancelled := by
    cases hgoes : d.cancelled with
    | true =>
        rw [hgoes] at hverdict
        cases hverdict
        exact ⟨.unstarted, [], .unstarted hgoes, (List.append_nil _).symm,
          ⟨iff_of_false nofun nofun, rfl, fun hs => absurd rfl hs⟩, rfl, nofun⟩
    | false =>
        rw [hgoes] at hverdict
        obtain ⟨x, calls, hends, -, h⟩ := inBrowser_eq_ok hgoes hverdict
        exact ⟨x, calls, hends, h⟩
  have herror : (resultOf d.now d'.now d'.log v).error = x.error?.map ErrorKind.name := by
    rw [← hfits.error]
    rfl
  refine ⟨x, calls, hends, fun y calls' h' => h'.unique hends, htrace, hcount, hfits.status, ?_, ?_, ?_,
    hfits.screenshot⟩
  · rw [herror]
    cases x <;> simp [Ending.error?]
  · rw [herror]
    cases x with
    | passed | unstarted | cancelled => simp [Ending.error?]
    | failed step f => simpa [Ending.error?, ErrorKind.name_inj] using hkind f rfl
    | unmet f => simpa [Ending.error?, ErrorKind.name_inj] using hkind f rfl
  · intro f hf
    rw [herror]
    cases x <;> cases hf <;> rfl

/-- A case whose second step looks for an element that is not there. -/
def lookingInVain : TestCase :=
  { id := "c1", title := "Save", steps := ["Go to https://shop.test", "Click 'Save'", "Click 'Next'"] }

/-- On a page without elements it ends with the second step. -/
theorem verdict_of_ends_in_vain : ∃ r d' x calls,
    (runCaseBy {} (Script.browser {}) .browser lookingInVain).run { browser := Script.start {}, now := ⟨0⟩ } =
      (.ok r, d') ∧
    Ends {} (Script.browser {}) lookingInVain { browser := Script.start {}, now := ⟨0⟩ } x calls ∧
    r.status = .fail ∧ r.error = some ErrorKind.targetNotFound.name ∧ x ≠ .passed ∧ d'.trace = calls := by
  have hfound : (((runCaseBy {} (Script.browser {}) .browser lookingInVain).run
      { browser := Script.start {}, now := ⟨0⟩ }).1.toOption.map fun r => (r.status, r.error)) =
      some (.fail, some ErrorKind.targetNotFound.name) := by decide +kernel
  cases hrun : (runCaseBy {} (Script.browser {}) .browser lookingInVain).run
      { browser := Script.start {}, now := ⟨0⟩ } with
  | mk o d' =>
      rw [hrun] at hfound
      cases o with
      | error f => cases hfound
      | ok r =>
          have hr : (r.status, r.error) = (.fail, some ErrorKind.targetNotFound.name) :=
            Option.some.inj hfound
          rw [Prod.mk.injEq] at hr
          obtain ⟨x, calls, hends, -, htrace, -, hpass, -⟩ := verdict_of_ends hrun
          refine ⟨r, d', x, calls, rfl, hends, hr.1, hr.2, fun hx => ?_, htrace⟩
          cases hr.1.symm.trans (hpass.mpr hx)

end StepRunner
