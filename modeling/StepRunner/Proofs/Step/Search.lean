import StepRunner.Proofs.Locator
import StepRunner.Proofs.Step.Execution

/-!
# Looking for an element

A step that acts on an element, and an assertion that the page's text does not bear out, wait for the
candidates of their phrase one after the other (`Search`). The first element that shows up is the only one
that the step deals with: `search_then_act` tells all the calls of such a step, for every page and phrase,
with what becomes of it.

* `does_firstReaching`: the search;
* `does_allOf`, `does_interact`: the calls on the element that was found;
* `does_check`: an assertion.
-/

namespace StepRunner

open Text

namespace Executor

variable {σ α : Type} {b : Browser σ} {e : Executor} {xs ys : List Exchange}

/-! ## 1. Calls and what their answers mean -/

/-- What an answer gives where a refusal is one of the answers. -/
def answered : Except CallFault Reply → Except StepFault (Except String Reply)
  | .ok reply => .ok (.ok reply)
  | .error (.refused m) => .ok (.error m)
  | .error (.crashed m) => .error (.page (.crashed m))

/-- A call, and what follows its success or its refusal. A crash ends the computation. -/
theorem does_attempt_bind {c : Call} {R : List Exchange → Except StepFault α → Prop}
    {next : Except String Reply → Stepping σ α}
    (hok : ∀ reply, Does b (fun ys r => R (⟨c, .ok reply⟩ :: ys) r) (next (.ok reply)))
    (hrefused : ∀ m, Does b (fun ys r => R (⟨c, .error (.refused m)⟩ :: ys) r) (next (.error m)))
    (hcrashed : ∀ m, R [⟨c, .error (.crashed m)⟩] (.error (.page (.crashed m)))) :
    Does b R (attempt b c >>= next) := by
  refine Does.bind (P := fun xs r => ∃ o, xs = [⟨c, o⟩] ∧ r = answered o) ?_ ?_ ?_
  · refine Does.ask_bind fun o => ?_
    rcases o with (m | m) | reply
    · exact Does.pure ⟨_, rfl, rfl⟩
    · exact Does.throw ⟨_, rfl, rfl⟩
    · exact Does.pure ⟨_, rfl, rfl⟩
  · rintro xs f ⟨(m | m) | reply, rfl, ⟨⟩⟩
    exact hcrashed m
  · rintro xs o ⟨(m | m) | reply, rfl, ⟨⟩⟩
    · exact hrefused m
    · exact hok reply

/-- A call that must succeed, and what follows. -/
theorem does_demand_bind {c : Call} {R : List Exchange → Except StepFault α → Prop}
    {next : Reply → Stepping σ α}
    (hok : ∀ reply, Does b (fun ys r => R (⟨c, .ok reply⟩ :: ys) r) (next reply))
    (hfailed : ∀ f, R [⟨c, .error f⟩] (.error (.page f))) : Does b R (demand b c >>= next) := by
  refine Does.bind (P := fun xs r => ∃ o, xs = [⟨c, o⟩] ∧ r = o.mapError StepFault.page) ?_ ?_ ?_
  · refine Does.ask_bind fun o => ?_
    cases o with
    | ok reply => exact Does.pure ⟨_, rfl, rfl⟩
    | error f => exact Does.throw ⟨_, rfl, rfl⟩
  · rintro xs f ⟨f | reply, rfl, ⟨⟩⟩
    exact hfailed f
  · rintro xs reply ⟨f | reply, rfl, ⟨⟩⟩
    exact hok reply

theorem does_say_bind {text : String} {R : List Exchange → Except StepFault α → Prop} {next : Stepping σ α}
    (h : Does b R next) : Does b R (say text >>= fun _ => next) :=
  Does.silent_bind (k := note text) (fun _ => ⟨rfl, rfl⟩) fun _ => h

/-- The text that an answer gives; a refusal gives none. -/
def textIn : Except CallFault Reply → Except StepFault String
  | .ok reply => .ok reply.textOrEmpty
  | .error (.refused _) => .ok ""
  | .error (.crashed m) => .error (.page (.crashed m))

theorem does_pageText (b : Browser σ) (c : Call) :
    Does b (fun xs r => ∃ o, xs = [⟨c, o⟩] ∧ r = textIn o) (pageText b c) :=
  does_attempt_bind (fun _ => Does.pure ⟨_, rfl, rfl⟩) (fun _ => Does.pure ⟨_, rfl, rfl⟩)
    fun _ => ⟨_, rfl, rfl⟩

/-- A text of the page, and what follows. -/
theorem does_pageText_bind {c : Call} {R : List Exchange → Except StepFault α → Prop}
    {next : String → Stepping σ α}
    (htext : ∀ o text, textIn o = .ok text → Does b (fun ys r => R (⟨c, o⟩ :: ys) r) (next text))
    (hcrashed : ∀ m, R [⟨c, .error (.crashed m)⟩] (.error (.page (.crashed m)))) :
    Does b R (pageText b c >>= next) := by
  refine Does.bind (does_pageText b c) ?_ ?_
  · rintro xs f ⟨(m | m) | reply, rfl, ⟨⟩⟩
    exact hcrashed m
  · rintro xs text ⟨o, rfl, h⟩
    exact htext o text h.symm

/-! ## 2. The search -/

/-- The candidates were waited for one after the other, and none reached the state. -/
def Passed (state : ElementState) (timeout : Int) : List String → List Exchange → Prop
  | [], xs => xs = []
  | candidate :: rest, xs => ∃ reply m ys,
      xs = ⟨.locator candidate, .ok reply⟩ ::
        ⟨.waitFor candidate state timeout, .error (.refused m)⟩ :: ys ∧ Passed state timeout rest ys

/-- What is said while candidates are waited for in order, and what is found. Whatever ends the search,
    no candidate after the one where it ends is asked for. -/
inductive Search (state : ElementState) (timeout : Int) :
    List String → List Exchange → Except StepFault (Option String) → Prop where
  /-- The first candidate that reaches the state is found. -/
  | found {passed : List String} {candidate : String} {rest : List String} {xs : List Exchange}
      {reply reply' : Reply} (before : Passed state timeout passed xs) :
      Search state timeout (passed ++ candidate :: rest)
        (xs ++ [⟨.locator candidate, .ok reply⟩, ⟨.waitFor candidate state timeout, .ok reply'⟩])
        (.ok (some candidate))
  /-- None of them reaches it. -/
  | exhausted {candidates : List String} {xs : List Exchange} (before : Passed state timeout candidates xs) :
      Search state timeout candidates xs (.ok none)
  /-- A wait breaks. -/
  | broken {passed : List String} {candidate : String} {rest : List String} {xs : List Exchange}
      {reply : Reply} {m : String} (before : Passed state timeout passed xs) :
      Search state timeout (passed ++ candidate :: rest)
        (xs ++ [⟨.locator candidate, .ok reply⟩,
          ⟨.waitFor candidate state timeout, .error (.crashed m)⟩])
        (.error (.page (.crashed m)))
  /-- A locator cannot be had. -/
  | unlocated {passed : List String} {candidate : String} {rest : List String} {xs : List Exchange}
      {f : CallFault} (before : Passed state timeout passed xs) :
      Search state timeout (passed ++ candidate :: rest) (xs ++ [⟨.locator candidate, .error f⟩])
        (.error (.page f))

variable {state : ElementState} {timeout : Int} {candidate : String} {rest : List String}
  {r : Except StepFault (Option String)}

/-- A search that goes on after a candidate. -/
theorem Search.after (reply : Reply) (m : String) (h : Search state timeout rest ys r) :
    Search state timeout (candidate :: rest) (⟨.locator candidate, .ok reply⟩ ::
      ⟨.waitFor candidate state timeout, .error (.refused m)⟩ :: ys) r := by
  have hcons {passed : List String} {zs : List Exchange} (hpassed : Passed state timeout passed zs) :
      Passed state timeout (candidate :: passed) (⟨.locator candidate, .ok reply⟩ ::
        ⟨.waitFor candidate state timeout, .error (.refused m)⟩ :: zs) := ⟨reply, m, zs, rfl, hpassed⟩
  cases h with
  | found before => exact .found (hcons before)
  | exhausted before => exact .exhausted (hcons before)
  | broken before => exact .broken (hcons before)
  | unlocated before => exact .unlocated (hcons before)

/-- **The search** for the first candidate that reaches a state. -/
theorem does_firstReaching (b : Browser σ) (state : ElementState) (timeout : Int) (candidates : List String) :
    Does b (Search state timeout candidates) (firstReaching b state timeout candidates) := by
  induction candidates with
  | nil => exact Does.pure (.exhausted rfl)
  | cons candidate rest ih =>
      have hnone : Passed state timeout [] [] := rfl
      refine does_demand_bind (fun reply => ?_) fun f => .unlocated hnone
      refine does_attempt_bind (fun reply' => ?_) (fun m => ?_) fun m => .broken hnone
      · exact Does.pure (.found hnone)
      · exact ih.mono fun _ _ h => h.after reply m

/-! ## 3. Interactions -/

/-- The call succeeded. -/
def Succeeded (x : Exchange) : Prop := ∃ reply, x.outcome = .ok reply

/-- Calls were made in order, and all succeeded or the last one failed. -/
inductive Acts : List Call → List Exchange → Option CallFault → Prop where
  | through {xs : List Exchange} (succeeded : ∀ x ∈ xs, Succeeded x) : Acts (xs.map Exchange.call) xs none
  | upTo {xs : List Exchange} {c : Call} {later : List Call} {f : CallFault}
      (succeeded : ∀ x ∈ xs, Succeeded x) :
      Acts (xs.map Exchange.call ++ c :: later) (xs ++ [⟨c, .error f⟩]) (some f)

theorem Acts.after {c : Call} {calls : List Call} {fault? : Option CallFault} (reply : Reply)
    (h : Acts calls xs fault?) : Acts (c :: calls) (⟨c, .ok reply⟩ :: xs) fault? := by
  have hcons {ys : List Exchange} (hys : ∀ x ∈ ys, Succeeded x) :
      ∀ x ∈ (⟨c, .ok reply⟩ : Exchange) :: ys, Succeeded x :=
    List.forall_mem_cons.mpr ⟨⟨reply, rfl⟩, hys⟩
  cases h with
  | through succeeded => exact .through (hcons succeeded)
  | upTo succeeded => exact .upTo (hcons succeeded)

/-- What a row of calls comes to. -/
def actedOutcome : Option CallFault → Except StepFault (Except String Unit)
  | none => .ok (.ok ())
  | some (.refused m) => .ok (.error m)
  | some (.crashed m) => .error (.page (.crashed m))

theorem does_allOf (b : Browser σ) (calls : List Call) :
    Does b (fun xs r => ∃ fault?, Acts calls xs fault? ∧ r = actedOutcome fault?) (allOf b calls) := by
  have hnil : ∀ x ∈ ([] : List Exchange), Succeeded x := nofun
  induction calls with
  | nil => exact Does.pure ⟨none, .through hnil, rfl⟩
  | cons c rest ih =>
      have hfirst (f : CallFault) : Acts (c :: rest) [⟨c, .error f⟩] (some f) := .upTo hnil
      refine does_attempt_bind (fun reply => ih.mono ?_) (fun m => Does.pure ⟨_, hfirst _, rfl⟩)
        fun m => ⟨_, hfirst _, rfl⟩
      rintro xs r ⟨fault?, hacts, rfl⟩
      exact ⟨fault?, hacts.after reply, rfl⟩

/-- What an interaction says to a page, and what becomes of it. -/
inductive Interacts (e : Executor) (action : Action) (target : String) (calls : String → List Call) :
    List Exchange → Except StepFault Unit → Prop where
  /-- The element was found and acted on, and nothing was said after. -/
  | acted {xs ys : List Exchange} {candidate : String}
      (search : Search .visible e.settings.interactionTimeout (locators target) xs (.ok (some candidate)))
      (acts : Acts (calls candidate) ys none) : Interacts e action target calls (xs ++ ys) (.ok ())
  /-- The page refused what was to be done with the element. -/
  | refused {xs ys : List Exchange} {candidate m : String}
      (search : Search .visible e.settings.interactionTimeout (locators target) xs (.ok (some candidate)))
      (acts : Acts (calls candidate) ys (some (.refused m))) :
      Interacts e action target calls (xs ++ ys) (.error (.failed .interactionFailed
        (action.name ++ " on " ++ candidate ++ " failed: " ++ m)))
  /-- Something broke when the element was acted on. -/
  | broke {xs ys : List Exchange} {candidate m : String}
      (search : Search .visible e.settings.interactionTimeout (locators target) xs (.ok (some candidate)))
      (acts : Acts (calls candidate) ys (some (.crashed m))) :
      Interacts e action target calls (xs ++ ys) (.error (.page (.crashed m)))
  /-- No element was found. -/
  | unfound {xs : List Exchange}
      (search : Search .visible e.settings.interactionTimeout (locators target) xs (.ok none)) :
      Interacts e action target calls xs
        (.error (.failed .targetNotFound ("Could not find element: " ++ target)))
  /-- The search broke off. -/
  | stopped {xs : List Exchange} {f : StepFault}
      (search : Search .visible e.settings.interactionTimeout (locators target) xs (.error f)) :
      Interacts e action target calls xs (.error f)

theorem filter_of_ne_empty {target : String} (h : target ≠ "") :
    (some target).filter (· != "") = some target := by
  simp [h]

/-- **An interaction** with a target looks for it and makes its calls on what is found. -/
theorem does_interact (e : Executor) (b : Browser σ) (action : Action) {target : String} (h : target ≠ "")
    (calls : String → List Call) :
    Does b (Interacts e action target calls) (e.interact b action (some target) calls) := by
  refine Does.bind (P := fun xs r => (∃ candidate, r = .ok candidate ∧ Search .visible
      e.settings.interactionTimeout (locators target) xs (.ok (some candidate))) ∨
    ∃ f, r = .error f ∧ Interacts e action target calls xs (.error f)) ?_ ?_ ?_
  · -- finding the target
    unfold requireTarget
    rw [filter_of_ne_empty h]
    refine Does.bind (does_firstReaching b _ _ _) (fun xs f hsearch => .inr ⟨f, rfl, .stopped hsearch⟩) ?_
    intro xs found? hsearch
    cases found? with
    | none => exact Does.throw (by rw [List.append_nil]; exact .inr ⟨_, rfl, .unfound hsearch⟩)
    | some candidate =>
        refine does_say_bind (Does.pure ?_)
        rw [List.append_nil]
        exact .inl ⟨candidate, rfl, hsearch⟩
  · rintro xs f (⟨candidate, ⟨⟩, -⟩ | ⟨f, ⟨⟩, h⟩)
    exact h
  · rintro xs candidate (⟨candidate, ⟨⟩, hsearch⟩ | ⟨f, ⟨⟩, -⟩)
    refine Does.bind (does_allOf b (calls candidate)) ?_ ?_
    · rintro ys f ⟨_ | m | m, hacts, ⟨⟩⟩
      exact .broke hsearch hacts
    · rintro ys o ⟨_ | m | m, hacts, ⟨⟩⟩
      · exact Does.pure (by rw [List.append_nil]; exact .acted hsearch hacts)
      · exact Does.throw (by rw [List.append_nil]; exact .refused hsearch hacts)

/-! ## 4. Assertions -/

/-- What an assertion says to a page, and what becomes of it. -/
inductive Asserts (e : Executor) (target : String) : List Exchange → Except StepFault Unit → Prop where
  /-- A text of the page mentions the target, and nothing was said after. -/
  | mentioned {o o' : Except CallFault Reply} {inner content : String} (read : textIn o = .ok inner)
      (read' : textIn o' = .ok content) (mentioned : mentions inner target ∨ mentions content target) :
      Asserts e target [⟨.innerText, o⟩, ⟨.textContent, o'⟩] (.ok ())
  /-- Neither text mentions it, and an element was looked for. -/
  | sought {o o' : Except CallFault Reply} {inner content : String} {xs : List Exchange}
      {found : Except StepFault (Option String)} (read : textIn o = .ok inner)
      (read' : textIn o' = .ok content) (missing : ¬ mentions inner target) (missing' : ¬ mentions content target)
      (search : Search .attached e.settings.assertionTimeout (locators target) xs found) :
      Asserts e target (⟨.innerText, o⟩ :: ⟨.textContent, o'⟩ :: xs) (found.bind fun
        | some _ => .ok ()
        | none => .error (.failed .assertionFailed ("Assertion failed: '" ++ target ++ "' not found on page")))
  /-- Something broke when the page's texts were read. -/
  | unread {m : String} : Asserts e target [⟨.innerText, .error (.crashed m)⟩] (.error (.page (.crashed m)))
  | unread' {o : Except CallFault Reply} {inner m : String} (read : textIn o = .ok inner) :
      Asserts e target [⟨.innerText, o⟩, ⟨.textContent, .error (.crashed m)⟩] (.error (.page (.crashed m)))

/-- **An assertion** reads the page's texts, and looks for an element if neither mentions the target. -/
theorem does_check (e : Executor) (b : Browser σ) {target : String} (h : target ≠ "") :
    Does b (Asserts e target) (e.check b (some target)) := by
  unfold check
  rw [filter_of_ne_empty h]
  refine does_pageText_bind (fun o inner hread => ?_) fun m => .unread
  refine does_pageText_bind (fun o' content hread' => ?_) fun m => .unread' hread
  split
  · rename_i hinner
    exact Does.note (.mentioned hread hread' (.inl hinner))
  · split
    · rename_i hcontent
      exact Does.note (.mentioned hread hread' (.inr hcontent))
    · rename_i hinner hcontent
      refine Does.bind (does_firstReaching b _ _ _) ?_ ?_
      · exact fun xs f hsearch => .sought hread hread' hinner hcontent hsearch
      · intro xs found? hsearch
        have hsought := Asserts.sought (e := e) hread hread' hinner hcontent hsearch
        cases found? with
        | none => exact Does.throw (by rw [List.append_nil]; exact hsought)
        | some candidate => exact Does.note (by rw [List.append_nil]; exact hsought)

end Executor

/-! ## 5. Steps -/

open Executor

/-- The calls of an interaction on the element that is found, if the step has all that they need. -/
def ParsedStep.calls? (settings : Settings) (step : ParsedStep) : Option (String → List Call) :=
  let t := settings.interactionTimeout
  match step.action, step.value with
  | .click, _ => some fun c => [.click c t, .waitForTimeout settings.clickSettle]
  | .type, some v => some fun c => [.focus c t, .fill c "" t, .pressSequentially c v t]
  | .select, some v => some fun c => [.selectOption c v t]
  | .hover, _ => some fun c => [.hover c t]
  | _, _ => none

variable {σ : Type}

theorem does_interact_say {e : Executor} {b : Browser σ} {action : Action} {target text : String}
    {calls : String → List Call} (h : target ≠ "") :
    Does b (Interacts e action target calls) (do
      e.interact b action (some target) calls
      say text) := by
  refine Does.bind (does_interact e b action h calls) (fun _ _ hx => hx) ?_
  rintro xs ⟨⟩ hx
  exact Does.note (by rw [List.append_nil]; exact hx)

/-- **Looking, then acting.** A click, a typing, a choice or a pointing with a target waits for the
    candidates of the target one after the other, each at most once, up to the first that is visible, and
    then deals with that element only; an assertion that neither text of the page bears out waits for the
    candidates to be there. Where no wait succeeds or something is refused, that is the fault of the step;
    where something breaks, nothing more is said. -/
theorem search_then_act (e : Executor) (b : Browser σ) {step : ParsedStep} {target : String}
    (htarget : step.target = some target) (hne : target ≠ "") :
    (locators target).Nodup ∧
      (∀ calls, step.calls? e.settings = some calls →
        Does b (Interacts e step.action target calls) (e.execute b step)) ∧
      (step.action = .assert → Does b (Asserts e target) (e.execute b step)) := by
  obtain ⟨action, sentence, target?, value, timeout⟩ := step
  cases htarget
  refine ⟨nodup_locators target, fun calls hcalls => ?_, ?_⟩
  · cases action with
    | click | hover =>
        cases hcalls
        exact does_interact_say hne
    | type | select =>
        cases value with
        | none => cases hcalls
        | some v =>
            cases hcalls
            exact does_interact_say hne
    | navigate | scroll | wait | assert | other => cases hcalls
  · rintro ⟨⟩
    exact does_check e b hne

/-- A click on what is called "Save". -/
def clickSave : ParsedStep := { action := .click, sentence := "Click 'Save'", target := some "Save" }

/-- A page that shows a link of that name, and no button. -/
def linkOnly : Script := { page := { elements := [("a:has-text(\"Save\")", {})] } }

/-- The second candidate is the first that shows up, and none is asked for after it. -/
theorem search_then_act_save :
    (clickSave.target = some "Save" ∧ "Save" ≠ "") ∧
      Does linkOnly.browser (Interacts {} .click "Save" fun c => [.click c 5000, .waitForTimeout 200])
        (({} : Executor).execute linkOnly.browser clickSave) ∧
      ((({} : Executor).execute linkOnly.browser clickSave).run
          { browser := linkOnly.start, now := ⟨0⟩ }).2.trace =
        [ .locator "button:has-text(\"Save\")", .waitFor "button:has-text(\"Save\")" .visible 5000,
          .locator "a:has-text(\"Save\")", .waitFor "a:has-text(\"Save\")" .visible 5000,
          .click "a:has-text(\"Save\")" 5000, .waitForTimeout 200 ] := by
  have htarget : clickSave.target = some "Save" := rfl
  exact ⟨⟨htarget, by decide⟩, (search_then_act {} linkOnly.browser htarget (by decide)).2.1 _ rfl,
    by decide +kernel⟩

end StepRunner
