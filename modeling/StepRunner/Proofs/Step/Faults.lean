import StepRunner.Proofs.Step.Search

/-!
# How steps fail

An action fails in ways of its own (`Action.faultKinds`). Nothing else leaves a step, but for what it does
not deal with: an exchange that breaks (`Exchange.Breaks`) and an address that cannot be joined with its
base. That a step is not valid shows before anything is said to the page.

* `does_navigate`: a navigation, with all that may become of it;
* `does_execute`: the faults of every step;
* `faults_of_onlyRefuses`: the faults on a page that breaks nothing, with those of the check of the expected
  outcome.
-/

namespace StepRunner

open Text

/-! ## 1. Pages that only refuse -/

/-- The exchange is one that no step deals with: something crashed, or an element could not be named, or
    the page would not wait. -/
inductive Exchange.Breaks : Exchange → Prop where
  | crashed {c : Call} {m : String} : Breaks ⟨c, .error (.crashed m)⟩
  | unlocated {selector : String} {f : CallFault} : Breaks ⟨.locator selector, .error f⟩
  | unwaited {time : Int} {f : CallFault} : Breaks ⟨.waitForTimeout time, .error f⟩

theorem Exchange.Breaks.of_crashed {x : Exchange} {m : String} (h : x.outcome = .error (.crashed m)) :
    x.Breaks := by
  obtain ⟨c, o⟩ := x
  cases h
  exact .crashed

/-- The browser fails by refusals only, and refuses neither to name an element nor to wait. -/
structure Browser.OnlyRefuses {σ : Type} (b : Browser σ) : Prop where
  refuses : ∀ s c m, (b.respond s c).1.outcome ≠ .error (.crashed m)
  locates : ∀ s selector f, (b.respond s (.locator selector)).1.outcome ≠ .error f
  waits : ∀ s time f, (b.respond s (.waitForTimeout time)).1.outcome ≠ .error f

variable {σ ε α : Type} {b : Browser σ}

theorem Browser.OnlyRefuses.not_breaks (h : b.OnlyRefuses) (s : σ) (c : Call) :
    ¬ Exchange.Breaks ⟨c, (b.respond s c).1.outcome⟩ := by
  intro hbreaks
  generalize ho : (b.respond s c).1.outcome = o at hbreaks
  cases hbreaks with
  | crashed => exact h.refuses s c _ ho
  | unlocated => exact h.locates s _ _ ho
  | unwaited => exact h.waits s _ _ ho

/-- What is done in such a browser is done without an exchange that breaks. -/
theorem Does.unbroken {P : List Exchange → Except ε α → Prop} {m : ExceptT ε (Driving σ) α}
    (hb : b.OnlyRefuses) (h : Does b P m) :
    Does b (fun xs r => P xs r ∧ ∀ x ∈ xs, ¬ x.Breaks) m := by
  intro d
  obtain ⟨xs, htalk, hp⟩ := h d
  exact ⟨xs, htalk, hp, htalk.answers.forall_mem hb.not_breaks⟩

/-! ## 2. Faults of an action -/

/-- The ways in which what is done with an element fails. -/
def interactionKinds : List ErrorKind := [.invalidStep, .targetNotFound, .interactionFailed]

/-- The ways in which an action fails. -/
def Action.faultKinds : Action → List ErrorKind
  | .navigate => [.invalidStep, .navigationFailed]
  | .click => interactionKinds
  | .type => interactionKinds
  | .select => interactionKinds
  | .hover => interactionKinds
  | .scroll => [.interactionFailed]
  | .wait => []
  | .assert => [.invalidStep, .assertionFailed]
  | .other _ => [.invalidStep]

namespace Executor

/-- A fault after these exchanges: one of the kinds, or an exchange that broke. -/
inductive Fails (kinds : List ErrorKind) : List Exchange → StepFault → Prop where
  /-- What is not valid fails before anything is said. -/
  | invalid {message : String} (known : .invalidStep ∈ kinds) : Fails kinds [] (.failed .invalidStep message)
  | failed {xs : List Exchange} {kind : ErrorKind} {message : String} (known : kind ∈ kinds)
      (valid : kind ≠ .invalidStep) : Fails kinds xs (.failed kind message)
  | broke {xs : List Exchange} {x : Exchange} {f : CallFault} (said : x ∈ xs) (breaks : x.Breaks)
      (outcome : x.outcome = .error f) : Fails kinds xs (.page f)

variable {e : Executor} {kinds : List ErrorKind} {xs ys : List Exchange} {f : StepFault}

/-- Whatever the computation fails with is one of the kinds, or an exchange that broke. -/
def FailsAs (b : Browser σ) (kinds : List ErrorKind) (m : Stepping σ α) : Prop :=
  Does b (fun xs r => ∀ f, r = .error f → Fails kinds xs f) m

theorem failsAs_invalid {message : String} (h : .invalidStep ∈ kinds) :
    FailsAs b kinds (throw (.failed .invalidStep message) : Stepping σ α) := by
  refine Does.throw ?_
  rintro f ⟨⟩
  exact .invalid h

theorem FailsAs.say {m : Stepping σ Unit} (h : FailsAs b kinds m) (text : String) :
    FailsAs b kinds (do m; Executor.say text) := by
  refine Does.bind h ?_ fun xs _ _ => Does.note nofun
  rintro xs f hf f' ⟨⟩
  exact hf f rfl

/-! ## 3. Interactions and assertions -/

variable {state : ElementState} {timeout : Int} {candidates : List String} {calls : List Call}

/-- A search is broken off by an exchange that breaks. -/
theorem Search.breaks (h : Search state timeout candidates xs (.error f)) :
    ∃ x ∈ xs, x.Breaks ∧ ∃ fault, x.outcome = .error fault ∧ f = .page fault := by
  cases h with
  | broken before =>
      exact ⟨_, List.mem_append_right _ (List.mem_cons_of_mem _ List.mem_cons_self), .crashed, _, rfl, rfl⟩
  | unlocated before => exact ⟨_, List.mem_append_right _ List.mem_cons_self, .unlocated, _, rfl, rfl⟩

theorem Acts.said {fault : CallFault} (h : Acts calls xs (some fault)) :
    ∃ x ∈ xs, x.outcome = .error fault := by
  cases h with
  | upTo succeeded => exact ⟨_, List.mem_append_right _ List.mem_cons_self, rfl⟩

theorem Interacts.fails {action : Action} {target : String} {calls : String → List Call}
    (h : Interacts e action target calls xs (.error f)) : Fails interactionKinds xs f := by
  cases h with
  | refused search acts => exact .failed (by decide) (by decide)
  | broke search acts =>
      obtain ⟨x, hx, ho⟩ := acts.said
      exact .broke (List.mem_append_right _ hx) (.of_crashed ho) ho
  | unfound search => exact .failed (by decide) (by decide)
  | stopped search =>
      obtain ⟨x, hx, hbreaks, fault, ho, rfl⟩ := search.breaks
      exact .broke hx hbreaks ho

theorem failsAs_interact (e : Executor) (b : Browser σ) (action : Action) (target : Option String)
    (calls : String → List Call) : FailsAs b interactionKinds (e.interact b action target calls) := by
  cases htarget : target.filter (· != "") with
  | none =>
      unfold interact requireTarget
      rw [htarget]
      refine Does.throw_bind ?_
      rintro f ⟨⟩
      exact .invalid (by decide)
  | some t =>
      obtain ⟨rfl, hne⟩ := Option.filter_eq_some_iff.mp htarget
      refine (does_interact e b action (by simpa using hne) calls).mono ?_
      rintro xs r h f rfl
      exact h.fails

theorem Asserts.fails {target : String} {r : Except StepFault Unit} (h : Asserts e target xs r)
    (hr : r = .error f) : Fails [.invalidStep, .assertionFailed] xs f := by
  cases h with
  | mentioned => cases hr
  | @sought o o' inner content xs found read read' missing missing' search =>
      rcases found with fault | _ | candidate
      · cases hr
        obtain ⟨x, hx, hbreaks, fault, ho, rfl⟩ := search.breaks
        exact .broke (List.mem_cons_of_mem _ (List.mem_cons_of_mem _ hx)) hbreaks ho
      · cases hr
        exact .failed (by decide) (by decide)
      · cases hr
  | unread =>
      cases hr
      exact .broke List.mem_cons_self .crashed rfl
  | unread' read =>
      cases hr
      exact .broke (List.mem_cons_of_mem _ List.mem_cons_self) .crashed rfl

theorem failsAs_check (e : Executor) (b : Browser σ) (target : Option String) :
    FailsAs b [.invalidStep, .assertionFailed] (e.check b target) := by
  cases htarget : target.filter (· != "") with
  | none =>
      unfold check
      rw [htarget]
      exact failsAs_invalid (by decide)
  | some t =>
      obtain ⟨rfl, hne⟩ := Option.filter_eq_some_iff.mp htarget
      exact (does_check e b (by simpa using hne)).mono fun xs r h f hr => h.fails hr

/-! ## 4. Navigation -/

/-- The first try of a navigation. -/
def firstGoto (e : Executor) (url : String) : Call := .goto url .domContentLoaded e.settings.navigationTimeout

/-- The second try. -/
def secondGoto (e : Executor) (url : String) : Call := .goto url .load e.settings.navigationRetryTimeout

/-- Waiting for the page after the first try. -/
def loading (e : Executor) : Call := .waitForLoadState .load e.settings.readyStateTimeout

/-- The next call of a navigation that has come so far. -/
inductive NavigatesOn (e : Executor) (url : String) : List Exchange → Call → Prop where
  | first : NavigatesOn e url [] (e.firstGoto url)
  | loading {reply : Reply} : NavigatesOn e url [⟨e.firstGoto url, .ok reply⟩] e.loading
  | second {m : String} : NavigatesOn e url [⟨e.firstGoto url, .error (.refused m)⟩] (e.secondGoto url)

/-- What a navigation says to a page, and what becomes of it. -/
inductive Navigates (e : Executor) (target : Option String) : List Exchange → Except StepFault Unit → Prop where
  /-- There is no address. -/
  | unaddressed (blank : ∀ t, target = some t → isBlankText t = true) :
      Navigates e target [] (.error (.failed .invalidStep "Navigate step has no URL"))
  /-- The address has no meaning. -/
  | unresolved {t : String} {f : StepFault} (addressed : target = some t) (resolved : e.resolve t = .error f) :
      Navigates e target [] (.error f)
  /-- The page was reached at once, whether or not it was loaded in time. -/
  | reached {t url : String} {reply : Reply} {o : Except CallFault Reply} (addressed : target = some t)
      (resolved : e.resolve t = .ok url) (whole : ∀ m, o ≠ .error (.crashed m)) :
      Navigates e target [⟨e.firstGoto url, .ok reply⟩, ⟨e.loading, o⟩] (.ok ())
  /-- The page was reached by the second try. -/
  | retried {t url m : String} {reply : Reply} (addressed : target = some t) (resolved : e.resolve t = .ok url) :
      Navigates e target [⟨e.firstGoto url, .error (.refused m)⟩, ⟨e.secondGoto url, .ok reply⟩] (.ok ())
  /-- Both tries were refused. -/
  | refused {t url m m' : String} (addressed : target = some t) (resolved : e.resolve t = .ok url) :
      Navigates e target [⟨e.firstGoto url, .error (.refused m)⟩, ⟨e.secondGoto url, .error (.refused m')⟩]
        (.error (.failed .navigationFailed ("Failed to navigate to " ++ url ++ ": " ++ m')))
  /-- The last of the calls crashed. -/
  | broke {t url m : String} {xs : List Exchange} {c : Call} (addressed : target = some t)
      (resolved : e.resolve t = .ok url) (next : NavigatesOn e url xs c) :
      Navigates e target (xs ++ [⟨c, .error (.crashed m)⟩]) (.error (.page (.crashed m)))

/-- **A navigation** goes to its address, and a second time if it is refused. -/
theorem does_navigate (e : Executor) (b : Browser σ) (target : Option String) :
    Does b (Navigates e target) (e.navigate b target) := by
  unfold navigate
  cases htarget : target.filter fun t => !isBlankText t with
  | none =>
      refine Does.throw (.unaddressed fun t ht => ?_)
      simpa [ht] using htarget
  | some t =>
      obtain ⟨haddressed, -⟩ := Option.filter_eq_some_iff.mp htarget
      cases hresolved : e.resolve t with
      | error f =>
          dsimp only
          rw [hresolved]
          exact Does.throw_bind (.unresolved haddressed hresolved)
      | ok url =>
          dsimp only
          rw [hresolved]
          refine does_say_bind (does_attempt_bind (fun reply => ?_) (fun m => ?_) fun m => ?_)
          · refine does_attempt_bind (fun reply' => ?_) (fun m => ?_) fun m => ?_
            · exact Does.note (.reached haddressed hresolved nofun)
            · exact does_say_bind (Does.note (.reached haddressed hresolved nofun))
            · exact .broke haddressed hresolved .loading
          · refine does_say_bind (does_attempt_bind (fun reply' => ?_) (fun m' => ?_) fun m' => ?_)
            · exact Does.note (.retried haddressed hresolved)
            · exact Does.throw (.refused haddressed hresolved)
            · exact .broke haddressed hresolved .second
          · exact .broke haddressed hresolved .first

theorem Navigates.fails {target : Option String} {r : Except StepFault Unit} (h : Navigates e target xs r)
    (hr : r = .error f) : Fails [.invalidStep, .navigationFailed] xs f ∨
      xs = [] ∧ ∃ t g, target = some t ∧ e.resolve t = .error (.url g) ∧ f = .url g := by
  cases h with
  | unaddressed blank =>
      cases hr
      exact .inl (.invalid (by decide))
  | unresolved addressed resolved =>
      cases hr
      rcases resolve_eq_error resolved with ⟨m, rfl⟩ | ⟨g, rfl⟩
      · exact .inl (.invalid (by decide))
      · exact .inr ⟨rfl, _, g, addressed, resolved, rfl⟩
  | reached | retried => cases hr
  | refused addressed resolved =>
      cases hr
      exact .inl (.failed (by decide) (by decide))
  | broke addressed resolved next =>
      cases hr
      exact .inl (.broke (List.mem_append_right _ List.mem_cons_self) .crashed rfl)

/-- The page refused to go to the address. -/
def refusesGoto (url : String) (x : Exchange) : Bool :=
  match x.call, x.outcome with
  | .goto address _ _, .error (.refused _) => address == url
  | _, _ => false

/-- The page refused twice to go to one address. -/
def RefusedTwice (xs : List Exchange) : Prop := ∃ url, xs.countP (refusesGoto url) = 2

/-- What is said last must be a refusal as well. -/
theorem not_refusedTwice (xs : List Exchange) (x : Exchange) (hxs : xs.length ≤ 1) (hx : ∀ url, refusesGoto url x = false) :
    ¬ RefusedTwice (xs ++ [x]) := by
  rintro ⟨url, htwo⟩
  have hone : xs.countP (refusesGoto url) ≤ xs.length := List.countP_le_length
  have hlast : [x].countP (refusesGoto url) = 0 := by simp [hx]
  rw [List.countP_append, hlast] at htwo
  omega

/-- **A navigation has failed** if both tries were refused, and not otherwise. -/
theorem Navigates.navigationFailed_iff {target : Option String} {r : Except StepFault Unit}
    (h : Navigates e target xs r) :
    (∃ message, r = .error (.failed .navigationFailed message)) ↔ RefusedTwice xs := by
  have hnone : ¬ RefusedTwice [] := by
    rintro ⟨url, ⟨⟩⟩
  cases h with
  | unaddressed blank => exact iff_of_false (by rintro ⟨m, ⟨⟩⟩) hnone
  | unresolved addressed resolved =>
      refine iff_of_false ?_ hnone
      rcases resolve_eq_error resolved with ⟨m, rfl⟩ | ⟨g, rfl⟩
      · rintro ⟨m, ⟨⟩⟩
      · rintro ⟨m, ⟨⟩⟩
  | @reached t url reply o addressed resolved whole =>
      exact iff_of_false nofun (not_refusedTwice [_] _ (Nat.le_refl 1) fun _ => rfl)
  | retried addressed resolved =>
      exact iff_of_false nofun (not_refusedTwice [_] _ (Nat.le_refl 1) fun _ => rfl)
  | @refused t url m m' addressed resolved =>
      exact iff_of_true ⟨_, rfl⟩ ⟨url, by simp [refusesGoto, firstGoto, secondGoto]⟩
  | @broke t url m xs c addressed resolved next =>
      refine iff_of_false (by rintro ⟨m, ⟨⟩⟩) (not_refusedTwice _ _ ?_ fun url' => ?_)
      · cases next <;> simp
      · cases c <;> rfl

/-! ## 5. The other steps -/

theorem failsAs_scroll (b : Browser σ) (target : Option String) :
    FailsAs b [.interactionFailed] (scroll b target) := by
  unfold scroll
  dsimp only
  refine does_attempt_bind (fun reply => Does.note nofun) (fun m => Does.throw ?_) fun m => ?_
  · rintro f ⟨⟩
    exact .failed (by decide) (by decide)
  · rintro f ⟨⟩
    exact .broke List.mem_cons_self .crashed rfl

theorem failsAs_wait (b : Browser σ) (time : Option Int) : FailsAs b [] (wait b time) := by
  refine does_say_bind (does_demand_bind (fun reply => Does.pure nofun) fun fault => ?_)
  rintro f ⟨⟩
  exact .broke List.mem_cons_self .unwaited rfl

/-- **The check of the expected outcome** fails as an assertion only. -/
theorem failsAs_validate (b : Browser σ) (expected : String) :
    FailsAs b [.assertionFailed] (validate b expected) := by
  unfold validate
  split
  · exact Does.pure nofun
  · dsimp only
    have hfailed (xs : List Exchange) (message : String) :
        ∀ f, (.error (.failed .assertionFailed message) : Except StepFault Unit) = .error f →
          Fails [.assertionFailed] xs f := by
      rintro f ⟨⟩
      exact .failed (by decide) (by decide)
    have hbroke (xs : List Exchange) (c : Call) (m : String) :
        ∀ f, (.error (.page (.crashed m)) : Except StepFault Unit) = .error f →
          Fails [.assertionFailed] (xs ++ [⟨c, .error (.crashed m)⟩]) f := by
      rintro f ⟨⟩
      exact .broke (List.mem_append_right _ List.mem_cons_self) .crashed rfl
    refine does_pageText_bind (fun o inner _ => ?_) (hbroke [] _)
    refine does_pageText_bind (fun o' content _ => ?_) (hbroke [_] _)
    split
    · exact Does.note nofun
    · split
      · exact Does.note nofun
      · split
        · refine does_pageText_bind (fun o'' url _ => ?_) (hbroke [_, _] _)
          split
          · exact does_say_bind (Does.pure nofun)
          · exact Does.throw (hfailed _ _)
        · exact Does.throw (hfailed _ _)

/-- **A step** fails in one of the ways of its action, or with what it does not deal with: an exchange that
    broke, or the address of a navigation that cannot be joined. -/
theorem does_execute (e : Executor) (b : Browser σ) (step : ParsedStep) :
    Does b (fun xs r => ∀ f, r = .error f → Fails step.action.faultKinds xs f ∨
      step.action = .navigate ∧ ∃ t g, step.target = some t ∧ e.resolve t = .error (.url g))
      (e.execute b step) := by
  obtain ⟨action, sentence, target, value, time⟩ := step
  have hknown {kinds : List ErrorKind} {m : Stepping σ Unit} (h : FailsAs b kinds m) (rest : Prop) :
      Does b (fun xs r => ∀ f, r = .error f → Fails kinds xs f ∨ rest) m :=
    h.mono fun xs r hr f hf => .inl (hr f hf)
  have hvalued : ErrorKind.invalidStep ∈ interactionKinds := by decide
  cases action with
  | navigate =>
      refine (does_navigate e b target).mono fun xs r h f hf => ?_
      rcases h.fails hf with hfails | ⟨-, t, g, ht, hg, -⟩
      · exact .inl hfails
      · exact .inr ⟨rfl, t, g, ht, hg⟩
  | click => exact hknown ((failsAs_interact e b .click target _).say _) _
  | hover => exact hknown ((failsAs_interact e b .hover target _).say _) _
  | type =>
      cases value with
      | none => exact hknown (failsAs_invalid hvalued) _
      | some v => exact hknown ((failsAs_interact e b .type target _).say _) _
  | select =>
      cases value with
      | none => exact hknown (failsAs_invalid hvalued) _
      | some v => exact hknown ((failsAs_interact e b .select target _).say _) _
  | wait => exact hknown (failsAs_wait b time) _
  | scroll => exact hknown (failsAs_scroll b target) _
  | assert => exact hknown (failsAs_check e b target) _
  | other name => exact hknown (failsAs_invalid (List.mem_singleton_self _)) _

/-! ## 6. On a page that breaks nothing -/

/-- A fault after which there was no exchange that breaks. -/
theorem Fails.of_unbroken (h : Fails kinds xs f) (hxs : ∀ x ∈ xs, ¬ x.Breaks) :
    ∃ kind message, f = .failed kind message ∧ kind ∈ kinds ∧ (kind = .invalidStep → xs = []) := by
  cases h with
  | invalid known => exact ⟨_, _, rfl, known, fun _ => rfl⟩
  | failed known valid => exact ⟨_, _, rfl, known, fun h => absurd h valid⟩
  | broke said breaks outcome => exact absurd breaks (hxs _ said)

/-- A browser that names elements and waits, and refuses everything else. -/
def grudging : Browser Unit where
  respond _ c := match c with
    | .locator _ | .waitForTimeout _ => ({}, ())
    | _ => ({ outcome := .error (.refused "no") }, ())

theorem onlyRefuses_grudging : grudging.OnlyRefuses where
  refuses _ c m := by cases c <;> exact nofun
  locates _ _ _ := nofun
  waits _ _ _ := nofun

/-- Going to an address of the shop. -/
def gotoCart : ParsedStep := { action := .navigate, sentence := "Go to /cart", target := some "/cart" }

/-- The executor of a shop. -/
def shopper : Executor := { baseUrl := some "http://shop.test" }

theorem resolve_gotoCart : (shopper.resolve "/cart").toOption = some "http://shop.test/cart" := by
  decide +kernel

/-- What a navigation says that has failed. -/
def navigationFailure? : Except StepFault Unit → Option String
  | .error (.failed .navigationFailed message) => some message
  | _ => none

end Executor

end StepRunner
