import StepRunner.Proofs.Browser.Exchange
import StepRunner.Step.Execution

/-!
# What steps ask of a browser

A step keeps to the page: it neither opens nor closes a part of the session nor takes a screenshot, and
it does not fail as cancelled (`KeepsToPage`). This goes along a computation and holds of the calls that a
step is made of, so it holds of every step (`keepsToPage_execute`) and of the check of the expected
outcome (`keepsToPage_validate`).
-/

namespace StepRunner

open Text

/-- A call of the page of a session, other than a screenshot. -/
def Call.isOfPage (c : Call) : Bool := !Script.isSessionCall c && c != .screenshot

/-- The kind of error that a fault counts as. -/
def StepFault.kind : StepFault → ErrorKind
  | .failed kind _ => kind
  | _ => .executionError

namespace Executor

variable {σ α β : Type} {b : Browser σ} {e : Executor} {d d' : Drive σ}

/-- The computation makes calls of the page only and does not fail as cancelled. -/
def KeepsToPage (b : Browser σ) (m : Stepping σ α) : Prop :=
  Does b (fun xs r => (∀ x ∈ xs, x.call.isOfPage = true) ∧
    ∀ message, r ≠ .error (.failed .cancelled message)) m

/-- What keeps to the page adds calls of the page to the trace, and no fault of it counts as cancelled. -/
theorem KeepsToPage.calls {m : Stepping σ α} {r : Except StepFault α} (h : KeepsToPage b m)
    (hrun : m.run d = (r, d')) : ∃ calls, d'.trace = d.trace ++ calls ∧
      (∀ call ∈ calls, call.isOfPage = true) ∧ ∀ f, r = .error f → f.kind ≠ .cancelled := by
  obtain ⟨xs, htalk, hcalls, hfault⟩ := h d
  rw [hrun] at htalk hfault
  refine ⟨xs.map Exchange.call, htalk.trace, by simpa using hcalls, ?_⟩
  rintro f rfl hkind
  cases f with
  | failed kind m =>
      change kind = .cancelled at hkind
      exact hfault m (by rw [hkind])
  | page | url | read => cases hkind

/-! ## 1. Along a computation -/

theorem KeepsToPage.pure (a : α) : KeepsToPage b (Pure.pure a : Stepping σ α) :=
  Does.pure ⟨nofun, nofun⟩

theorem KeepsToPage.throw {f : StepFault} (h : ∀ message, f ≠ .failed .cancelled message) :
    KeepsToPage b (throw f : Stepping σ α) := by
  refine Does.throw ⟨nofun, ?_⟩
  rintro message ⟨⟩
  exact h message rfl

theorem KeepsToPage.bind {m : Stepping σ α} {next : α → Stepping σ β} (hm : KeepsToPage b m)
    (hnext : ∀ a, KeepsToPage b (next a)) : KeepsToPage b (m >>= next) := by
  refine Does.bind hm (fun xs f h => ⟨h.1, fun message he => ?_⟩) fun xs a h =>
    (hnext a).mono fun ys r hys => ⟨?_, hys.2⟩
  · cases he
    exact h.2 message rfl
  · intro x hx
    exact (List.mem_append.mp hx).elim (h.1 x) (hys.1 x)

theorem KeepsToPage.ask {c : Call} (h : c.isOfPage = true) :
    KeepsToPage b (StepRunner.ask b c : Stepping σ _) := by
  refine Does.ask fun o => ⟨fun x hx => ?_, nofun⟩
  rw [List.mem_singleton.mp hx]
  exact h

theorem keepsToPage_say (text : String) : KeepsToPage b (say text : Stepping σ Unit) :=
  Does.note ⟨nofun, nofun⟩

theorem keepsToPage_attempt {c : Call} (h : c.isOfPage = true) : KeepsToPage b (attempt b c) := by
  refine (KeepsToPage.ask h).bind fun o => ?_
  rcases o with (_ | _) | _
  · exact .pure _
  · exact .throw nofun
  · exact .pure _

theorem keepsToPage_demand {c : Call} (h : c.isOfPage = true) : KeepsToPage b (demand b c) := by
  refine (KeepsToPage.ask h).bind fun o => ?_
  cases o with
  | ok r => exact .pure _
  | error f => exact .throw nofun

/-! ## 2. Steps -/

/-- An address is missing its base, or cannot be joined with it. -/
theorem resolve_eq_error {target : String} {f : StepFault} (h : e.resolve target = .error f) :
    (∃ message, f = .failed .invalidStep message) ∨ ∃ g, f = .url g := by
  unfold resolve at h
  dsimp only at h
  split at h
  · cases h
  · split at h
    · cases hb : e.baseUrl.filter (· != "") with
      | none =>
          rw [hb] at h
          exact .inl ⟨_, (Except.error.inj h).symm⟩
      | some base =>
          rw [hb] at h
          dsimp only at h
          split at h
          · cases h
          · exact .inr ⟨_, (Except.error.inj h).symm⟩
    · cases h

theorem not_cancelled_of_resolve {target : String} {f : StepFault} (h : e.resolve target = .error f)
    (message : String) : f ≠ .failed .cancelled message := by
  rintro rfl
  rcases resolve_eq_error h with ⟨m, ⟨⟩⟩ | ⟨g, ⟨⟩⟩

theorem keepsToPage_resolve (target : String) :
    KeepsToPage b (liftM (e.resolve target) : Stepping σ String) := by
  cases h : e.resolve target with
  | ok url => exact .pure url
  | error f => exact .throw (not_cancelled_of_resolve h)

theorem keepsToPage_navigate (target : Option String) : KeepsToPage b (e.navigate b target) := by
  unfold navigate
  cases target.filter fun t => !isBlankText t with
  | none => exact .throw nofun
  | some target =>
      refine (keepsToPage_resolve target).bind fun url => (keepsToPage_say _).bind fun _ =>
        (keepsToPage_attempt rfl).bind fun r => ?_
      cases r with
      | ok _ =>
          refine (keepsToPage_attempt rfl).bind fun r => ?_
          cases r with
          | ok _ => exact keepsToPage_say _
          | error _ => exact (keepsToPage_say _).bind fun _ => keepsToPage_say _
      | error first =>
          refine (keepsToPage_say _).bind fun _ => (keepsToPage_attempt rfl).bind fun r => ?_
          cases r with
          | ok _ => exact keepsToPage_say _
          | error m => exact .throw nofun

theorem keepsToPage_firstReaching (state : ElementState) (timeout : Int) (candidates : List String) :
    KeepsToPage b (firstReaching b state timeout candidates) := by
  induction candidates with
  | nil => exact .pure none
  | cons candidate rest ih =>
      refine (keepsToPage_demand rfl).bind fun _ => (keepsToPage_attempt rfl).bind fun r => ?_
      cases r with
      | ok _ => exact .pure _
      | error _ => exact ih

theorem keepsToPage_requireTarget (action : Action) (target : Option String) :
    KeepsToPage b (e.requireTarget b action target) := by
  unfold requireTarget
  cases target.filter (· != "") with
  | none => exact .throw nofun
  | some target =>
      refine (keepsToPage_firstReaching _ _ _).bind fun found => ?_
      cases found with
      | none => exact .throw nofun
      | some candidate => exact (keepsToPage_say _).bind fun _ => .pure _

theorem keepsToPage_allOf {calls : List Call} (h : ∀ c ∈ calls, c.isOfPage = true) :
    KeepsToPage b (allOf b calls) := by
  induction calls with
  | nil => exact .pure _
  | cons c rest ih =>
      refine (keepsToPage_attempt (h c List.mem_cons_self)).bind fun r => ?_
      cases r with
      | ok _ => exact ih fun c hc => h c (List.mem_cons_of_mem _ hc)
      | error m => exact .pure _

theorem keepsToPage_interact {action : Action} {target : Option String} {calls : String → List Call}
    (h : ∀ candidate, ∀ c ∈ calls candidate, c.isOfPage = true) :
    KeepsToPage b (e.interact b action target calls) := by
  refine (keepsToPage_requireTarget action target).bind fun candidate =>
    (keepsToPage_allOf (h candidate)).bind fun r => ?_
  cases r with
  | ok _ => exact .pure _
  | error m => exact .throw nofun

theorem keepsToPage_requireValue (name : String) (value : Option String) :
    KeepsToPage b (requireValue name value : Stepping σ String) := by
  cases value with
  | none => exact .throw nofun
  | some v => exact .pure v

theorem keepsToPage_scroll (target : Option String) : KeepsToPage b (scroll b target) := by
  unfold scroll
  dsimp only
  refine (keepsToPage_attempt rfl).bind fun r => ?_
  cases r with
  | ok _ => exact keepsToPage_say _
  | error m => exact .throw nofun

theorem keepsToPage_pageText {c : Call} (h : c.isOfPage = true) : KeepsToPage b (pageText b c) := by
  refine (keepsToPage_attempt h).bind fun r => ?_
  cases r with
  | ok _ => exact .pure _
  | error _ => exact .pure _

theorem keepsToPage_check (target : Option String) : KeepsToPage b (e.check b target) := by
  unfold check
  cases target.filter (· != "") with
  | none => exact .throw nofun
  | some target =>
      refine (keepsToPage_pageText rfl).bind fun inner => (keepsToPage_pageText rfl).bind fun content => ?_
      split
      · exact keepsToPage_say _
      · split
        · exact keepsToPage_say _
        · refine (keepsToPage_firstReaching _ _ _).bind fun found => ?_
          cases found with
          | some candidate => exact keepsToPage_say _
          | none => exact .throw nofun

/-- **A step keeps to the page.** -/
theorem keepsToPage_execute (e : Executor) (b : Browser σ) (step : ParsedStep) :
    KeepsToPage b (e.execute b step) := by
  unfold execute
  cases step.action with
  | navigate => exact keepsToPage_navigate _
  | click =>
      exact (keepsToPage_interact (by simp [Call.isOfPage, Script.isSessionCall])).bind fun _ =>
        keepsToPage_say _
  | type =>
      exact (keepsToPage_requireValue _ _).bind fun v =>
        (keepsToPage_interact (by simp [Call.isOfPage, Script.isSessionCall])).bind fun _ =>
          keepsToPage_say _
  | select =>
      exact (keepsToPage_requireValue _ _).bind fun v =>
        (keepsToPage_interact (by simp [Call.isOfPage, Script.isSessionCall])).bind fun _ =>
          keepsToPage_say _
  | hover =>
      exact (keepsToPage_interact (by simp [Call.isOfPage, Script.isSessionCall])).bind fun _ =>
        keepsToPage_say _
  | wait => exact (keepsToPage_say _).bind fun _ => (keepsToPage_demand rfl).bind fun _ => .pure _
  | scroll => exact keepsToPage_scroll _
  | assert => exact keepsToPage_check _
  | other name => exact .throw nofun

/-- **The check of the expected outcome keeps to the page.** -/
theorem keepsToPage_validate (b : Browser σ) (expected : String) : KeepsToPage b (validate b expected) := by
  unfold validate
  split
  · exact .pure _
  · dsimp only
    refine (keepsToPage_pageText rfl).bind fun inner => (keepsToPage_pageText rfl).bind fun content => ?_
    split
    · exact keepsToPage_say _
    · split
      · exact keepsToPage_say _
      · split
        · refine (keepsToPage_pageText rfl).bind fun url => ?_
          split
          · exact (keepsToPage_say _).bind fun _ => .pure _
          · exact .throw nofun
        · exact .throw nofun

end Executor

end StepRunner
