import StepRunner.Proofs.Case.Session

/-!
# What a screenshot shows

A case in a browser asks the page for a screenshot at most once, after it has failed, and its result shows
what the page answered (`doesShow_runCaseBy`): the bytes as a data URL, or nothing where the page gave
none. The part of a case that takes the screenshot lies between calls that are none (`Shows.between`).
-/

namespace StepRunner.Case

open Text

variable {σ α : Type} {b : Browser σ} {xs ys zs : List Exchange} {screenshot : Option String}

/-! ## 1. Answers -/

/-- What a page answered that was asked for screenshots. -/
def shots (xs : List Exchange) : List (Except CallFault Reply) :=
  (xs.filter (·.call == .screenshot)).map Exchange.outcome

theorem shots_append : shots (xs ++ ys) = shots xs ++ shots ys := by
  rw [shots, List.filter_append, List.map_append]
  rfl

theorem shots_eq_nil (h : ∀ x ∈ xs, x.call ≠ .screenshot) : shots xs = [] := by
  rw [shots, List.map_eq_nil_iff, List.filter_eq_nil_iff]
  simpa using h

theorem shots_of_isOfPage (h : ∀ x ∈ xs, x.call.isOfPage = true) : shots xs = [] := by
  refine shots_eq_nil fun x hx he => ?_
  have hpage := h x hx
  rw [he] at hpage
  cases hpage

theorem shots_of_onlySession (h : OnlySession xs) : shots xs = [] := by
  refine shots_eq_nil fun x hx he => ?_
  have hsession := h x hx
  rw [he] at hsession
  cases hsession

/-- Bytes as a data URL. -/
def dataUrl (bytes : List UInt8) : String := imagePrefix ++ String.ofList (Base64.encode bytes)

/-- The screenshot that there is after these answers. -/
def shown : List (Except CallFault Reply) → Option String
  | [.ok reply] => some (dataUrl reply.bytes)
  | _ => none

/-- The page was asked once at most, and the screenshot shows its answer. -/
structure Shows (xs : List Exchange) (screenshot : Option String) : Prop where
  once : (shots xs).length ≤ 1
  shown : screenshot = shown (shots xs)

theorem Shows.congr (h : Shows ys screenshot) (heq : shots xs = shots ys) : Shows xs screenshot :=
  ⟨by rw [heq]; exact h.once, by rw [heq]; exact h.shown⟩

/-- What shows a screenshot still does between calls that are none. -/
theorem Shows.between (hxs : shots xs = []) (h : Shows ys screenshot) (hzs : shots zs = []) :
    Shows (xs ++ (ys ++ zs)) screenshot :=
  h.congr (by rw [shots_append, shots_append, hxs, hzs, List.append_nil, List.nil_append])

theorem shows_none (h : shots xs = []) : Shows xs none := ⟨by rw [h]; exact Nat.zero_le 1, by rw [h]; rfl⟩

/-- Whatever the part of a case gives shows the page's answer. -/
def DoesShow (b : Browser σ) (f : α → Option String) (m : Casing σ α) : Prop :=
  Does b (fun xs r => ∀ a, r = .ok a → Shows xs (f a)) m

/-! ## 2. Parts of a case -/

theorem doesShow_capture (b : Browser σ) : DoesShow b id (capture b) := by
  refine Does.ask_bind fun o => ?_
  rcases o with (m | m) | reply
  · refine Does.report_bind (Does.note_bind (Does.pure ?_))
    rintro a ⟨⟩
    exact ⟨Nat.le_refl 1, rfl⟩
  · exact Does.throw nofun
  · refine Does.note_bind (Does.pure ?_)
    rintro a ⟨⟩
    exact ⟨Nat.le_refl 1, rfl⟩

theorem doesShow_failure (b : Browser σ) (c : TestCase) (f : StepFault) :
    DoesShow b Verdict.screenshot (failure b c f) := by
  have hcapture (kind : ErrorKind) (m : String) : DoesShow b Verdict.screenshot (do
      let screenshot ← capture b
      return { status := .fail, message := m, error := some kind, screenshot } : Casing σ Verdict) := by
    refine Does.bind_ok (doesShow_capture b) fun xs shot h => Does.pure ?_
    rintro v ⟨⟩
    rw [List.append_nil]
    exact h shot rfl
  cases f with
  | failed kind m =>
      refine Does.note_bind ?_
      by_cases hkind : kind = .cancelled
      · subst hkind
        refine Does.pure ?_
        rintro v ⟨⟩
        exact shows_none rfl
      · rw [if_neg hkind]
        exact hcapture kind m
  | page | url | read =>
      exact Does.report_bind (Does.note_bind (hcapture _ _))

theorem doesShow_failureIn (e : Executor) (b : Browser σ) (c : TestCase) :
    DoesShow b (fun v? => v?.bind Verdict.screenshot) (failureIn e b c) := by
  refine Does.caught_bind (does_attemptSteps e b c) fun xs o hpage => ?_
  have hxs := shots_of_isOfPage hpage
  cases o with
  | ok _ =>
      refine Does.pure ?_
      rintro v? ⟨⟩
      exact shows_none (by rw [List.append_nil]; exact hxs)
  | error f =>
      refine Does.bind_ok (doesShow_failure b c f) fun ys v h => Does.pure ?_
      rintro v? ⟨⟩
      exact (h v rfl).between hxs rfl

/-- The session around it asks for no screenshot. -/
theorem doesShow_inSession {settings : Settings} {f : α → Option String} {use : Casing σ α}
    (h : DoesShow b f use) : DoesShow b f (inSession b settings use) := by
  refine Does.bind_ok (does_openSession b settings) ?_
  rintro xs ⟨⟩ hopen
  have hxs := shots_of_onlySession hopen.2.1
  refine Does.caught_bind h fun ys o huse => ?_
  cases o with
  | ok a =>
      refine Does.bind_ok (does_closeSession b _) fun zs _ hclose => Does.pure ?_
      rintro a' ⟨⟩
      rw [List.append_nil]
      exact (huse a rfl).between hxs (shots_of_onlySession hclose.session)
  | error f => exact Does.bind_ok (does_closeSession b _) fun zs _ hclose => Does.throw nofun

theorem doesShow_inBrowser (e : Executor) (b : Browser σ) (c : TestCase) :
    DoesShow b Verdict.screenshot (inBrowser e b c) := by
  refine Does.bind_ok (doesShow_inSession (doesShow_failureIn e b c)) fun xs v? h => ?_
  cases v? with
  | some v =>
      refine Does.pure ?_
      rintro v' ⟨⟩
      rw [List.append_nil]
      exact h _ rfl
  | none =>
      refine Does.note_bind (Does.pure ?_)
      rintro v ⟨⟩
      rw [List.append_nil]
      exact h _ rfl

/-! ## 3. Results -/

/-- **The screenshot of a result** shows what the page answered. -/
theorem doesShow_runCaseBy (e : Executor) (b : Browser σ) (c : TestCase) :
    DoesShow b CaseResult.screenshot (runCaseBy e b .browser c) := by
  have hverdict : DoesShow b Verdict.screenshot (verdict e b .browser c) := by
    refine Does.get_bind fun d => ?_
    split
    · refine Does.note_bind (Does.pure ?_)
      rintro v ⟨⟩
      exact shows_none rfl
    · exact doesShow_inBrowser e b c
  refine Does.get_bind fun d => Does.silent_bind (fun _ => ⟨rfl, rfl⟩) fun _ => Does.note_bind ?_
  refine Does.bind_ok hverdict fun xs v h => Does.get_bind fun d' => Does.pure ?_
  rintro r ⟨⟩
  rw [List.append_nil]
  exact h v rfl

end StepRunner.Case
