import StepRunner.Proofs.Case.Course

/-!
# What becomes of a session

Every exchange of a case with its browser is dealt with somewhere, but for those that are `uncontained?`:
crashes of the calls that open or close the session or take the screenshot, and a stop that fails. The
outcome of a part of a case is accounted for by its exchanges (`Accounts`): the last uncontained fault
escapes; if there is none, a refusal to open is what no session could be opened for.

Each part of running a case in a browser has its lemma, which tells its calls and accounts for its
outcome: `does_closeSession`, `does_openSession`, `does_inSession`, `does_capture`, `does_failure`.
-/

namespace StepRunner

/-! ## 1. Faults of exchanges -/

/-- The fault of an exchange that nothing deals with. -/
def Exchange.uncontained? (x : Exchange) : Option CallFault :=
  match x.outcome with
  | .ok _ => none
  | .error (.refused m) => if x.call = .stop then some (.refused m) else none
  | .error (.crashed m) => if x.call.isOfPage then none else some (.crashed m)

/-- The message on a session that could not be opened since the exchange was a refusal to. -/
def Exchange.refusal? (x : Exchange) : Option String :=
  match x.call, x.outcome with
  | .start, .error (.refused m) => some ("Failed to start Playwright: " ++ m)
  | .launch _, .error (.refused m) => some ("Failed to launch browser: " ++ m)
  | .newContext _ _, .error (.refused m) => some ("Failed to launch browser: " ++ m)
  | .newPage, .error (.refused m) => some ("Failed to launch browser: " ++ m)
  | _, _ => none

/-- The last fault that nothing deals with. -/
def escaping? (xs : List Exchange) : Option CallFault := (xs.filterMap Exchange.uncontained?).getLast?

/-- The message on a session that could not be opened. -/
def refusal? (xs : List Exchange) : Option String := xs.findSome? Exchange.refusal?

variable {xs ys : List Exchange} {x : Exchange}

theorem escaping?_append : escaping? (xs ++ ys) = (escaping? ys).or (escaping? xs) := by
  unfold escaping?
  rw [List.filterMap_append, List.getLast?_append]

theorem refusal?_append : refusal? (xs ++ ys) = (refusal? xs).or (refusal? ys) :=
  List.findSome?_append

theorem escaping?_cons : escaping? (x :: xs) = (escaping? xs).or x.uncontained? := by
  have hone : escaping? [x] = x.uncontained? := by
    unfold escaping?
    cases h : x.uncontained? <;> simp [h]
  rw [← List.singleton_append, escaping?_append, hone]

theorem refusal?_cons : refusal? (x :: xs) = x.refusal?.or (refusal? xs) := by
  unfold refusal?
  rw [List.findSome?_cons]
  cases x.refusal? <;> rfl

/-- With calls of the page only, nothing escapes and nothing is refused. -/
theorem nothing_of_isOfPage (h : ∀ x ∈ xs, x.call.isOfPage = true) : escaping? xs = none ∧ refusal? xs = none := by
  constructor
  · have hnone : xs.filterMap Exchange.uncontained? = [] := by
      refine List.filterMap_eq_nil_iff.mpr fun x hx => ?_
      obtain ⟨c, o⟩ := x
      have hc : c.isOfPage = true := h _ hx
      unfold Exchange.uncontained?
      dsimp only
      split
      · rfl
      · refine if_neg ?_
        rintro rfl
        cases hc
      · exact if_pos hc
    rw [escaping?, hnone]
    rfl
  · refine List.findSome?_eq_none_iff.mpr fun x hx => ?_
    obtain ⟨c, o⟩ := x
    have hc : c.isOfPage = true := h _ hx
    cases c <;> first | rfl | cases hc

namespace Case

variable {σ α β : Type} {b : Browser σ} {e : Executor} {c : TestCase}

/-- The exchanges tell what a part of a case came to. -/
def Accounts (xs : List Exchange) : Except CaseFault α → Prop
  | .ok _ => escaping? xs = none ∧ refusal? xs = none
  | .error (.provision m) => escaping? xs = none ∧ refusal? xs = some m
  | .error (.escaped f) => ∃ fault, f = .page fault ∧ escaping? xs = some fault

/-- All calls open or close a part of the session. -/
def OnlySession (xs : List Exchange) : Prop := ∀ x ∈ xs, Script.isSessionCall x.call = true

theorem OnlySession.append (h : OnlySession xs) (h' : OnlySession ys) : OnlySession (xs ++ ys) :=
  fun x hx => (List.mem_append.mp hx).elim (h x) (h' x)

/-- What follows a part that succeeded tells what both came to. -/
theorem Accounts.append {a : α} {r : Except CaseFault β} (h : Accounts xs (.ok a : Except CaseFault α))
    (h' : Accounts ys r) : Accounts (xs ++ ys) r := by
  obtain ⟨hescape, hrefusal⟩ := h
  rcases r with (m | f) | b
  · exact ⟨by rw [escaping?_append, h'.1, hescape]; rfl, by rw [refusal?_append, hrefusal, h'.2]; rfl⟩
  · obtain ⟨fault, hf, hx⟩ := h'
    exact ⟨fault, hf, by rw [escaping?_append, hx]; rfl⟩
  · exact ⟨by rw [escaping?_append, h'.1, hescape]; rfl, by rw [refusal?_append, hrefusal, h'.2]; rfl⟩

theorem Accounts.error {f : CaseFault} (h : Accounts xs (.error f : Except CaseFault α)) :
    Accounts xs (.error f : Except CaseFault β) := by
  cases f <;> exact h

theorem accounts_nil (a : α) : Accounts [] (.ok a : Except CaseFault α) := ⟨rfl, rfl⟩

/-! ## 2. Opening and closing -/

/-- Resources were closed in order and the session stopped, unless something uncontained ended that. -/
structure Closes (resources : List Resource) (xs : List Exchange) (r : Except CaseFault Unit) : Prop where
  accounts : Accounts xs r
  refused : refusal? xs = none
  session : OnlySession xs
  calls : r = .ok () → xs.map Exchange.call = resources.map Call.close ++ [.stop]

/-- **Closing a session** closes the resources in order and stops. Only what is uncontained ends it. -/
theorem does_closeSession (b : Browser σ) (resources : List Resource) :
    Does b (Closes resources) (closeSession b resources) := by
  induction resources with
  | nil =>
      refine Does.ask_bind fun o => ?_
      cases o with
      | ok reply => exact Does.pure ⟨⟨rfl, rfl⟩, rfl, by simp [OnlySession, Script.isSessionCall], fun _ => rfl⟩
      | error f =>
          refine Does.throw ⟨?_, rfl, by simp [OnlySession, Script.isSessionCall], by rintro ⟨⟩⟩
          cases f <;> exact ⟨_, rfl, rfl⟩
  | cons resource rest ih =>
      have hone (o : Except CallFault Reply) : OnlySession [⟨.close resource, o⟩] := by
        simp [OnlySession, Script.isSessionCall]
      -- what is left to close, after an answer that is passed over
      have hrest (o : Except CallFault Reply)
          (ho : Accounts [⟨.close resource, o⟩] (.ok () : Except CaseFault Unit)) :
          Does b (fun ys r => Closes (resource :: rest) (⟨.close resource, o⟩ :: ys) r)
            (closeSession b rest) := by
        refine ih.mono fun ys r hys => ⟨ho.append hys.accounts, ?_, (hone o).append hys.session, fun hr => ?_⟩
        · rw [refusal?_cons, hys.refused]
          cases o <;> rfl
        · rw [List.map_cons, hys.calls hr]
          rfl
      refine Does.ask_bind fun o => ?_
      rcases o with (m | m) | reply
      · exact hrest _ ⟨rfl, rfl⟩
      · exact Does.throw ⟨⟨_, rfl, rfl⟩, rfl, hone _, by rintro ⟨⟩⟩
      · exact hrest _ ⟨rfl, rfl⟩

/-- A part of the session is opened by the calls, or the session closed. -/
def Opens (calls : List Call) (xs : List Exchange) (r : Except CaseFault Unit) : Prop :=
  Accounts xs r ∧ OnlySession xs ∧ (r = .ok () → xs.map Exchange.call = calls)

theorem Opens.append {calls calls' : List Call} {r : Except CaseFault Unit} (h : Opens calls xs (.ok ()))
    (h' : Opens calls' ys r) : Opens (calls ++ calls') (xs ++ ys) r :=
  ⟨h.1.append h'.1, h.2.1.append h'.2.1, fun hr => by rw [List.map_append, h.2.2 rfl, h'.2.2 hr]⟩

/-- What fails after a part that was opened. -/
theorem Opens.error {calls : List Call} {f : CaseFault} (h : Opens calls xs (.error f))
    (calls' : List Call) : Opens calls' xs (.error f) := ⟨h.1, h.2.1, nofun⟩

theorem does_opens_bind {calls calls' : List Call} {m m' : Casing σ Unit} (h : Does b (Opens calls) m)
    (h' : Does b (Opens calls') m') : Does b (Opens (calls ++ calls')) (m >>= fun _ => m') :=
  Does.bind h (fun _ _ hx => hx.error _) fun _ _ hx => h'.mono fun _ _ hy => hx.append hy

theorem refusal?_of_not_refused {call : Call} {o : Except CallFault Reply}
    (h : ∀ m, o ≠ .error (.refused m)) : Exchange.refusal? ⟨call, o⟩ = none := by
  rcases o with (m | m) | reply
  · exact absurd rfl (h m)
  · cases call <;> rfl
  · cases call <;> rfl

/-- A call that opens a part of the session, or else closes what was opened before. -/
theorem does_openPart (b : Browser σ) (opened : List Resource) (call : Call)
    (hsession : Script.isSessionCall call = true) (hstop : call ≠ .stop)
    (hrefusal : ∀ m, Exchange.refusal? ⟨call, .error (.refused m)⟩ = some ("Failed to launch browser: " ++ m)) :
    Does b (Opens [call]) (openPart b opened call) := by
  have hone (o : Except CallFault Reply) : OnlySession [⟨call, o⟩] := by
    simpa [OnlySession] using hsession
  have hpage : call.isOfPage = false := by simp [Call.isOfPage, hsession]
  refine Does.ask_bind fun o => ?_
  cases o with
  | ok reply =>
      refine Does.pure ⟨⟨rfl, ?_⟩, hone _, fun _ => rfl⟩
      rw [refusal?_cons, refusal?_of_not_refused (o := .ok reply) (by simp)]
      rfl
  | error f =>
      refine Does.bind (does_closeSession b opened) ?_ ?_
      · intro ys f' hclose
        cases f' with
        | provision m => cases hclose.refused.symm.trans hclose.accounts.2
        | escaped g =>
            obtain ⟨fault, hg, hescape⟩ := hclose.accounts
            refine ⟨⟨fault, hg, ?_⟩, (hone _).append hclose.session, by rintro ⟨⟩⟩
            rw [escaping?_cons, hescape]
            rfl
      · intro ys _ hclose
        obtain ⟨hescape, hrefused⟩ := hclose.accounts
        cases f with
        | refused m =>
            refine Does.throw ?_
            rw [List.append_nil]
            refine ⟨⟨?_, ?_⟩, (hone _).append hclose.session, by rintro ⟨⟩⟩
            · rw [escaping?_cons, hescape]
              exact if_neg hstop
            · rw [refusal?_cons, hrefusal]
              rfl
        | crashed m =>
            refine Does.throw ?_
            rw [List.append_nil]
            refine ⟨⟨.crashed m, rfl, ?_⟩, (hone _).append hclose.session, by rintro ⟨⟩⟩
            rw [escaping?_cons, hescape]
            exact if_neg (by simp [hpage])

/-- The calls that open a session. -/
def openingCalls (settings : Settings) : List Call :=
  [.start, .launch settings.headless, .newContext settings.viewportWidth settings.viewportHeight, .newPage]

/-- The calls that close a session. -/
def closingCalls : List Call := [.close .context, .close .browser, .stop]

/-- **Opening a session** makes its four calls, unless one of them fails. -/
theorem does_openSession (b : Browser σ) (settings : Settings) :
    Does b (Opens (openingCalls settings)) (openSession b settings) := by
  unfold openSession
  refine Does.ask_bind fun o => ?_
  dsimp only
  have hone : OnlySession [⟨.start, o⟩] := by simp [OnlySession, Script.isSessionCall]
  rcases o with (m | m) | reply
  · exact Does.throw_bind ⟨⟨rfl, rfl⟩, hone, by rintro ⟨⟩⟩
  · exact Does.throw_bind ⟨⟨_, rfl, rfl⟩, hone, by rintro ⟨⟩⟩
  · have hlisten : Does b (Opens []) (modify fun d => { d with listening := true } : Casing σ Unit) :=
      Does.silent (fun _ => ⟨rfl, rfl⟩) fun _ => ⟨accounts_nil (), by simp [OnlySession], fun _ => rfl⟩
    have hparts := does_opens_bind
      (does_openPart b [] (.launch settings.headless) rfl (by simp) fun _ => rfl)
      (does_opens_bind (does_openPart b [.browser]
        (.newContext settings.viewportWidth settings.viewportHeight) rfl (by simp) fun _ => rfl)
        (does_opens_bind (does_openPart b [.context, .browser] .newPage rfl (by simp) fun _ => rfl) hlisten))
    have hstart : Opens [.start] [⟨.start, .ok reply⟩] (.ok ()) := ⟨⟨rfl, rfl⟩, hone, fun _ => rfl⟩
    exact hparts.mono fun ys r hys => hstart.append hys

/-- **What is done in a session** is accounted for together with its opening and closing, and nothing is
    done where it could not be opened. -/
theorem does_inSession {settings : Settings} {use : Casing σ α}
    (huse : Does b (fun xs r => Accounts xs r ∧ refusal? xs = none) use) :
    Does b (fun xs r => Accounts xs r ∧ ∀ m, r = .error (.provision m) → OnlySession xs)
      (inSession b settings use) := by
  refine Does.bind (does_openSession b settings) (fun xs f hopen => ⟨hopen.1.error, fun _ _ => hopen.2.1⟩) ?_
  rintro xs ⟨⟩ hopen
  refine Does.caught_bind huse ?_
  rintro ys o ⟨haccounts, hrefused⟩
  cases o with
  | ok a =>
      refine Does.bind (does_closeSession b _) ?_ ?_
      · intro zs f hclose
        have hall := hopen.1.append (haccounts.append hclose.accounts)
        refine ⟨hall.error, ?_⟩
        rintro m ⟨⟩
        cases hclose.refused.symm.trans hclose.accounts.2
      · intro zs _ hclose
        refine Does.pure ⟨?_, nofun⟩
        rw [List.append_nil]
        exact hopen.1.append (haccounts.append hclose.accounts)
  | error f =>
      cases f with
      | provision m => cases hrefused.symm.trans haccounts.2
      | escaped f =>
          obtain ⟨fault, rfl, hescape⟩ := haccounts
          refine Does.bind (does_closeSession b _) ?_ ?_
          · intro zs f' hclose
            cases f' with
            | provision m => cases hclose.refused.symm.trans hclose.accounts.2
            | escaped g =>
                obtain ⟨fault', hg, hescape'⟩ := hclose.accounts
                refine ⟨⟨fault', hg, ?_⟩, nofun⟩
                rw [escaping?_append, escaping?_append, hescape']
                rfl
          · intro zs _ hclose
            refine Does.throw ⟨⟨fault, rfl, ?_⟩, nofun⟩
            rw [List.append_nil, escaping?_append, escaping?_append, hclose.accounts.1, hescape]
            rfl

/-! ## 3. Verdicts -/

/-- **A screenshot** is one call; only its crash escapes. -/
theorem does_capture (b : Browser σ) :
    Does b (fun xs r => xs.map Exchange.call = [.screenshot] ∧ Accounts xs r ∧ refusal? xs = none)
      (capture b) := by
  refine Does.ask_bind fun o => ?_
  rcases o with (m | m) | reply
  · exact Does.report_bind (Does.note_bind (Does.pure ⟨rfl, ⟨rfl, rfl⟩, rfl⟩))
  · exact Does.throw ⟨rfl, ⟨_, rfl, rfl⟩, rfl⟩
  · exact Does.note_bind (Does.pure ⟨rfl, ⟨rfl, rfl⟩, rfl⟩)

/-- The calls that document a failure. -/
def documenting (f : StepFault) : List Call := if f.kind = .cancelled then [] else [.screenshot]

/-- The failure was documented, and the verdict is on it. -/
structure Documents (f : StepFault) (xs : List Exchange) (r : Except CaseFault Verdict) : Prop where
  calls : xs.map Exchange.call = documenting f
  accounts : Accounts xs r
  refused : refusal? xs = none
  verdict : ∀ v, r = .ok v → v.status = .fail ∧ v.error = some f.kind ∧
    (v.screenshot ≠ none → f.kind ≠ .cancelled)

/-- **The verdict on a failure** has its kind, and a screenshot at most if it does not count as
    cancelled. -/
theorem does_failure (b : Browser σ) (c : TestCase) (f : StepFault) :
    Does b (Documents f) (failure b c f) := by
  have hcapture {kind : ErrorKind} {m : String} (hkind : f.kind = kind) (hne : kind ≠ .cancelled) :
      Does b (Documents f) (do
        let screenshot ← capture b
        return { status := .fail, message := m, error := some kind, screenshot } : Casing σ Verdict) := by
    subst hkind
    have hcalls : documenting f = [.screenshot] := if_neg hne
    refine Does.bind (does_capture b) ?_ ?_
    · rintro xs g ⟨hmap, haccounts, hrefused⟩
      exact ⟨hmap.trans hcalls.symm, haccounts.error, hrefused, nofun⟩
    · rintro xs shot ⟨hmap, haccounts, hrefused⟩
      rw [← hcalls] at hmap
      refine Does.pure ?_
      rw [List.append_nil]
      refine ⟨hmap, haccounts, hrefused, ?_⟩
      rintro v ⟨⟩
      exact ⟨rfl, rfl, fun _ => hne⟩
  cases f with
  | failed kind m =>
      refine Does.note_bind ?_
      by_cases hkind : kind = .cancelled
      · subst hkind
        refine Does.pure ⟨rfl, accounts_nil _, rfl, ?_⟩
        rintro v ⟨⟩
        exact ⟨rfl, rfl, fun h => absurd rfl h⟩
      · rw [if_neg hkind]
        exact hcapture rfl hkind
  | page | url | read =>
      exact Does.report_bind (Does.note_bind (hcapture rfl nofun))

theorem does_carryOut (e : Executor) (b : Browser σ) (index : Nat) (texts : List String) :
    Does b (fun xs _ => ∀ x ∈ xs, x.call.isOfPage = true) (carryOut e b index texts) := by
  induction texts generalizing index with
  | nil => exact Does.pure nofun
  | cons text rest ih =>
      intro d
      rw [carryOut_cons]
      split
      · exact ⟨[], .silent rfl rfl, nofun⟩
      · have hsteps : Does b (fun xs _ => ∀ x ∈ xs, x.call.isOfPage = true)
            (takeStep e b index text >>= fun _ => carryOut e b (index + 1) rest) :=
          Does.bind (keepsToPage_takeStep e b index text) (fun _ _ h => h.1) fun xs _ h =>
            (ih (index + 1)).mono fun ys _ hys x hx => (List.mem_append.mp hx).elim (h.1 x) (hys x)
        exact hsteps d

/-- The steps and the check of the outcome keep to the page. -/
theorem does_attemptSteps (e : Executor) (b : Browser σ) (c : TestCase) :
    Does b (fun xs _ => ∀ x ∈ xs, x.call.isOfPage = true) (attemptSteps e b c) :=
  Does.bind (does_carryOut e b 1 c.steps) (fun _ _ h => h) fun _ _ h =>
    (Executor.keepsToPage_validate b c.expectedResult).mono fun _ _ hys x hx =>
      (List.mem_append.mp hx).elim (h x) (hys.1 x)

theorem does_failureIn (e : Executor) (b : Browser σ) (c : TestCase) :
    Does b (fun xs r => Accounts xs r ∧ refusal? xs = none) (failureIn e b c) := by
  refine Does.caught_bind (does_attemptSteps e b c) fun xs o hpage => ?_
  have hxs : Accounts xs (.ok () : Except CaseFault Unit) := nothing_of_isOfPage hpage
  cases o with
  | ok _ =>
      refine Does.pure ?_
      rw [List.append_nil]
      exact ⟨hxs, hxs.2⟩
  | error f =>
      refine Does.bind (does_failure b c f) ?_ ?_
      · intro ys g hys
        exact ⟨hxs.append hys.accounts.error, by rw [refusal?_append, hxs.2, hys.refused]; rfl⟩
      · intro ys v hys
        refine Does.pure ?_
        rw [List.append_nil]
        exact ⟨hxs.append hys.accounts, by rw [refusal?_append, hxs.2, hys.refused]; rfl⟩

/-- **A case in a browser** is accounted for, and nothing was done where no session could be opened. -/
theorem does_inBrowser (e : Executor) (b : Browser σ) (c : TestCase) :
    Does b (fun xs r => Accounts xs r ∧ ∀ m, r = .error (.provision m) → OnlySession xs)
      (inBrowser e b c) := by
  refine Does.bind (does_inSession (does_failureIn e b c)) ?_ ?_
  · rintro xs f ⟨haccounts, honly⟩
    exact ⟨haccounts.error, fun m hm => honly m (by cases hm; rfl)⟩
  · rintro xs v? ⟨haccounts, -⟩
    cases v? with
    | some v =>
        refine Does.pure ⟨?_, nofun⟩
        rw [List.append_nil]
        exact haccounts
    | none =>
        refine Does.note_bind (Does.pure ⟨?_, nofun⟩)
        rw [List.append_nil]
        exact haccounts

end Case

end StepRunner
