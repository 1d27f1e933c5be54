import StepRunner.Proofs.Case.Session

/-!
# What a session opens it closes

Whatever fails, and however what is done in a session ends: each part that was opened is closed once, the
last one first, and the session is stopped at the very end.

* `Case.Unopened` and `Case.Session`: what is said in a session, one case for each stage at which it can
  fail;
* `Case.Released`: what that comes to, counted over the exchanges;
* `released_of_use`: every session, with whatever is done in it, as long as no resource crashes as it is
  closed (`Case.Tidy`). Scripted browsers are like that (`Script.tidy_of_answers`).
-/

namespace StepRunner

/-! ## 1. Opened and closed -/

/-- The resource that the exchange opened. -/
def Exchange.opened? (x : Exchange) : Option Resource :=
  match x.call, x.outcome with
  | .launch _, .ok _ => some .browser
  | .newContext _ _, .ok _ => some .context
  | _, _ => none

/-- The resource that the exchange closed, or tried to. -/
def Exchange.closed? (x : Exchange) : Option Resource :=
  match x.call with
  | .close resource => some resource
  | _ => none

/-- The session was started. -/
def Exchange.Starts (x : Exchange) : Prop := x.call = .start ∧ ∃ reply, x.outcome = .ok reply

variable {xs ys closing : List Exchange} {x : Exchange} {resources : List Resource}

/-- What is not of the session neither opens nor closes a part of it, nor is a refusal to open it. -/
theorem Exchange.plain_of_not_isSessionCall (h : Script.isSessionCall x.call = false) :
    x.opened? = none ∧ x.closed? = none ∧ x.refusal? = none := by
  obtain ⟨c, o⟩ := x
  cases c <;> first | exact ⟨rfl, rfl, rfl⟩ | cases h

theorem plain_of_use (h : ∀ y ∈ ys, Script.isSessionCall y.call = false) :
    ys.filterMap Exchange.opened? = [] ∧ ys.filterMap Exchange.closed? = [] ∧ refusal? ys = none :=
  ⟨List.filterMap_eq_nil_iff.mpr fun y hy => (Exchange.plain_of_not_isSessionCall (h y hy)).1,
    List.filterMap_eq_nil_iff.mpr fun y hy => (Exchange.plain_of_not_isSessionCall (h y hy)).2.1,
    List.findSome?_eq_none_iff.mpr fun y hy => (Exchange.plain_of_not_isSessionCall (h y hy)).2.2⟩

/-- The resources are closed in order, and the session is stopped. -/
def Closing (resources : List Resource) (xs : List Exchange) : Prop :=
  xs.map Exchange.call = resources.map Call.close ++ [.stop]

/-- Closing opens nothing, and is no refusal to open the session. -/
theorem Closing.plain (h : Closing resources closing) :
    closing.filterMap Exchange.opened? = [] ∧ refusal? closing = none := by
  have hone : ∀ x ∈ closing, x.opened? = none ∧ x.refusal? = none := by
    intro x hx
    have hc : x.call ∈ resources.map Call.close ++ [.stop] := h ▸ List.mem_map_of_mem hx
    obtain ⟨c, o⟩ := x
    rcases List.mem_append.mp hc with hc | hc
    · obtain ⟨resource, -, rfl⟩ := List.mem_map.mp hc
      exact ⟨rfl, rfl⟩
    · obtain rfl : c = .stop := List.mem_singleton.mp hc
      exact ⟨rfl, rfl⟩
  exact ⟨List.filterMap_eq_nil_iff.mpr fun x hx => (hone x hx).1,
    List.findSome?_eq_none_iff.mpr fun x hx => (hone x hx).2⟩

theorem Closing.closed (h : Closing resources closing) :
    closing.filterMap Exchange.closed? = resources := by
  have hcalls (zs : List Exchange) : zs.filterMap Exchange.closed? =
      (zs.map Exchange.call).filterMap fun c => Exchange.closed? ⟨c, .ok .done⟩ := by
    rw [List.filterMap_map]
    rfl
  have hclose : (resources.map Call.close).filterMap (fun c => Exchange.closed? ⟨c, .ok .done⟩) =
      resources := by
    rw [List.filterMap_map]
    exact List.filterMap_some
  rw [hcalls, h, List.filterMap_append, hclose]
  exact List.append_nil _

namespace Case

variable {σ α : Type} {b : Browser σ} {settings : Settings}
  {body : List Exchange → Except CaseFault α → Prop} {r : Except CaseFault α} {f : CaseFault}

/-- No resource crashed as it was closed, and nothing kept the session from stopping. -/
def Tidy (xs : List Exchange) : Prop :=
  ∀ x ∈ xs, x.closed?.isSome = true ∨ x.call = .stop → x.uncontained? = none

theorem Tidy.left (h : Tidy (xs ++ ys)) : Tidy xs := fun x hx => h x (List.mem_append_left _ hx)

theorem Tidy.right (h : Tidy (xs ++ ys)) : Tidy ys := fun x hx => h x (List.mem_append_right _ hx)

theorem Tidy.tail (h : Tidy (x :: xs)) : Tidy xs := fun y hy => h y (List.mem_cons_of_mem _ hy)

/-! ## 2. The course of a session -/

/-- A tidy session is closed to its end. -/
theorem does_closing (b : Browser σ) (resources : List Resource) :
    Does b (fun xs r => Tidy xs → r = .ok () ∧ Closing resources xs) (closeSession b resources) := by
  induction resources with
  | nil =>
      refine Does.ask_bind fun o => ?_
      cases o with
      | ok reply => exact Does.pure fun _ => ⟨rfl, rfl⟩
      | error fault =>
          refine Does.throw fun h => ?_
          have hstop := h _ List.mem_cons_self (.inr rfl)
          cases fault <;> cases hstop
  | cons resource rest ih =>
      have hrest (o : Except CallFault Reply) :
          Does b (fun ys r => Tidy (⟨.close resource, o⟩ :: ys) →
            r = .ok () ∧ Closing (resource :: rest) (⟨.close resource, o⟩ :: ys)) (closeSession b rest) :=
        ih.mono fun ys r h ht => ⟨(h ht.tail).1, congrArg (Call.close resource :: ·) (h ht.tail).2⟩
      refine Does.ask_bind fun o => ?_
      rcases o with (m | m) | reply
      · exact hrest _
      · exact Does.throw fun h => nomatch h _ List.mem_cons_self (.inl rfl)
      · exact hrest _

/-- Why a session whose first call fails is not opened. -/
def startFault : CallFault → CaseFault
  | .refused m => .provision ("Failed to start Playwright: " ++ m)
  | .crashed m => .escaped (.page (.crashed m))

/-- Why a session is not opened that has started. -/
def launchFault : CallFault → CaseFault
  | .refused m => .provision ("Failed to launch browser: " ++ m)
  | .crashed m => .escaped (.page (.crashed m))

/-- The next part of a session to be opened, after what was said so far, and what is open then. -/
inductive NextPart (settings : Settings) : List Exchange → Call → List Resource → Prop where
  | browser (r₀ : Reply) : NextPart settings [⟨.start, .ok r₀⟩] (.launch settings.headless) []
  | context (r₀ r₁ : Reply) :
      NextPart settings [⟨.start, .ok r₀⟩, ⟨.launch settings.headless, .ok r₁⟩]
        (.newContext settings.viewportWidth settings.viewportHeight) [.browser]
  | page (r₀ r₁ r₂ : Reply) :
      NextPart settings
        [⟨.start, .ok r₀⟩, ⟨.launch settings.headless, .ok r₁⟩,
          ⟨.newContext settings.viewportWidth settings.viewportHeight, .ok r₂⟩]
        .newPage [.context, .browser]

/-- What is said where a session cannot be opened, and why it is not: what was opened before is closed. -/
inductive Unopened (settings : Settings) : List Exchange → CaseFault → Prop where
  | unstarted (fault : CallFault) : Unopened settings [⟨.start, .error fault⟩] (startFault fault)
  | stopped (fault : CallFault) {before closing : List Exchange} {call : Call} {opened : List Resource}
      (part : NextPart settings before call opened) (closes : Closing opened closing) :
      Unopened settings (before ++ [⟨call, .error fault⟩] ++ closing) (launchFault fault)

/-- What is said as a session opens. -/
def opening (settings : Settings) (r₀ r₁ r₂ r₃ : Reply) : List Exchange :=
  [⟨.start, .ok r₀⟩, ⟨.launch settings.headless, .ok r₁⟩,
    ⟨.newContext settings.viewportWidth settings.viewportHeight, .ok r₂⟩, ⟨.newPage, .ok r₃⟩]

/-- What is said in a session, and what becomes of it. -/
inductive Session (settings : Settings) (body : List Exchange → Except CaseFault α → Prop) :
    List Exchange → Except CaseFault α → Prop where
  | unopened {xs : List Exchange} {f : CaseFault} (h : Unopened settings xs f) :
      Session settings body xs (.error f)
  | used (r₀ r₁ r₂ r₃ : Reply) {ys closing : List Exchange} {r : Except CaseFault α} (said : body ys r)
      (closes : Closing [.context, .browser] closing) :
      Session settings body (opening settings r₀ r₁ r₂ r₃ ++ ys ++ closing) r

/-- A part of a session is opened, or what was opened before is closed. -/
theorem does_part (b : Browser σ) (opened : List Resource) (call : Call) :
    Does b (fun xs r => Tidy xs → (∃ reply, xs = [⟨call, .ok reply⟩] ∧ r = .ok ()) ∨
        ∃ fault closing, xs = ⟨call, .error fault⟩ :: closing ∧ Closing opened closing ∧
          r = .error (launchFault fault))
      (openPart b opened call) := by
  refine Does.ask_bind fun o => ?_
  cases o with
  | ok reply => exact Does.pure fun _ => .inl ⟨reply, rfl, rfl⟩
  | error fault =>
      refine Does.bind (does_closing b opened) (fun ys f h ht => nomatch (h ht.tail).1) fun ys _ h => ?_
      cases fault with
      | refused m =>
          refine Does.throw fun ht => .inr ⟨.refused m, ys, ?_, ?_, rfl⟩
          · rw [List.append_nil]
          · rw [List.append_nil] at ht
            exact (h ht.tail).2
      | crashed m =>
          refine Does.throw fun ht => .inr ⟨.crashed m, ys, ?_, ?_, rfl⟩
          · rw [List.append_nil]
          · rw [List.append_nil] at ht
            exact (h ht.tail).2

/-- **A session opens**, or what was opened of it is closed. -/
theorem does_opening (b : Browser σ) (settings : Settings) :
    Does b (fun xs r => Tidy xs → (∃ r₀ r₁ r₂ r₃, xs = opening settings r₀ r₁ r₂ r₃ ∧ r = .ok ()) ∨
        ∃ f, Unopened settings xs f ∧ r = .error f)
      (openSession b settings) := by
  unfold openSession
  refine Does.ask_bind fun o => ?_
  dsimp only
  rcases o with (m | m) | r₀
  · exact Does.throw_bind fun _ => .inr ⟨_, .unstarted (.refused m), rfl⟩
  · exact Does.throw_bind fun _ => .inr ⟨_, .unstarted (.crashed m), rfl⟩
  refine Does.bind (does_part b [] _) ?_ ?_
  · intro xs f h ht
    rcases h ht.tail with ⟨reply, -, ⟨⟩⟩ | ⟨fault, closing, rfl, hclosing, ⟨⟩⟩
    exact .inr ⟨_, .stopped fault (.browser r₀) hclosing, rfl⟩
  intro xs _ hlaunch
  refine Does.bind (does_part b [.browser] _) ?_ ?_
  · intro ys f h ht
    rcases hlaunch ht.tail.left with ⟨r₁, rfl, -⟩ | ⟨_, _, -, -, ⟨⟩⟩
    rcases h ht.tail.right with ⟨reply, -, ⟨⟩⟩ | ⟨fault, closing, rfl, hclosing, ⟨⟩⟩
    exact .inr ⟨_, .stopped fault (.context r₀ r₁) hclosing, rfl⟩
  intro ys _ hcontext
  refine Does.bind (does_part b [.context, .browser] _) ?_ ?_
  · intro zs f h ht
    rcases hlaunch ht.tail.left with ⟨r₁, rfl, -⟩ | ⟨_, _, -, -, ⟨⟩⟩
    rcases hcontext ht.tail.right.left with ⟨r₂, rfl, -⟩ | ⟨_, _, -, -, ⟨⟩⟩
    rcases h ht.tail.right.right with ⟨reply, -, ⟨⟩⟩ | ⟨fault, closing, rfl, hclosing, ⟨⟩⟩
    exact .inr ⟨_, .stopped fault (.page r₀ r₁ r₂) hclosing, rfl⟩
  intro zs _ hpage
  refine Does.silent (fun _ => ⟨rfl, rfl⟩) fun _ ht => ?_
  rcases hlaunch ht.tail.left with ⟨r₁, rfl, -⟩ | ⟨_, _, -, -, ⟨⟩⟩
  rcases hcontext ht.tail.right.left with ⟨r₂, rfl, -⟩ | ⟨_, _, -, -, ⟨⟩⟩
  rcases hpage ht.tail.right.right.left with ⟨r₃, rfl, -⟩ | ⟨_, _, -, -, ⟨⟩⟩
  exact .inl ⟨r₀, r₁, r₂, r₃, rfl, rfl⟩

/-- **A tidy session takes its course**, whatever is done in it. -/
theorem does_session {use : Casing σ α} (huse : Does b body use) :
    Does b (fun xs r => Tidy xs → Session settings body xs r) (inSession b settings use) := by
  refine Does.bind (does_opening b settings) ?_ ?_
  · intro xs f h ht
    rcases h ht with ⟨_, _, _, _, -, ⟨⟩⟩ | ⟨f', hf, ⟨⟩⟩
    exact .unopened hf
  intro xs _ hopening
  refine Does.caught_bind huse fun ys o hbody => ?_
  -- the session is closed, whether what was done in it succeeded or not
  have hused (zs : List Exchange) (ht : Tidy (xs ++ (ys ++ zs))) (hclosing : Closing [.context, .browser] zs) :
      Session settings body (xs ++ (ys ++ zs)) o := by
    rcases hopening ht.left with ⟨r₀, r₁, r₂, r₃, rfl, -⟩ | ⟨_, -, ⟨⟩⟩
    rw [← List.append_assoc]
    exact .used r₀ r₁ r₂ r₃ hbody hclosing
  cases o with
  | ok a =>
      refine Does.bind (does_closing b _) (fun zs f h ht => nomatch (h ht.right.right).1) fun zs _ h => ?_
      refine Does.pure fun ht => ?_
      rw [List.append_nil] at ht ⊢
      exact hused zs ht (h ht.right.right).2
  | error f =>
      refine Does.bind (does_closing b _) (fun zs f h ht => nomatch (h ht.right.right).1) fun zs _ h => ?_
      refine Does.throw fun ht => ?_
      rw [List.append_nil] at ht ⊢
      exact hused zs ht (h ht.right.right).2

/-! ## 3. What it comes to -/

/-- How a session ends: it was refused to open, it broke as it opened, or as what was done in it. -/
inductive Results (settings : Settings) (body : List Exchange → Except CaseFault α → Prop)
    (xs : List Exchange) : Except CaseFault α → Prop where
  | refused {m : String} (h : refusal? xs = some m) : Results settings body xs (.error (.provision m))
  | broke {call : Call} {m : String} (h : refusal? xs = none) (stage : call ∈ openingCalls settings)
      (said : ⟨call, .error (.crashed m)⟩ ∈ xs) :
      Results settings body xs (.error (.escaped (.page (.crashed m))))
  | asUsed (r₀ r₁ r₂ r₃ : Reply) {ys after : List Exchange} {r : Except CaseFault α}
      (h : refusal? xs = none) (split : xs = opening settings r₀ r₁ r₂ r₃ ++ ys ++ after)
      (said : body ys r) : Results settings body xs r

/-- What a session comes to. -/
structure Released (settings : Settings) (body : List Exchange → Except CaseFault α → Prop)
    (xs : List Exchange) (r : Except CaseFault α) : Prop where
  /-- It is stopped once, and last, exactly if it was started. -/
  stopped : (∃ x ∈ xs, x.Starts) ↔ ∃ before, xs.map Exchange.call = before ++ [.stop] ∧ .stop ∉ before
  /-- It is not stopped otherwise. -/
  unstarted : (∃ x ∈ xs, x.call = .stop) → ∃ x ∈ xs, x.Starts
  /-- The browser is opened at most once, and a context at most once after it. -/
  opened : xs.filterMap Exchange.opened? <+: [.browser, .context]
  /-- Just what was opened is closed, once and in reverse order. -/
  closed : xs.filterMap Exchange.closed? = (xs.filterMap Exchange.opened?).reverse
  ends : Results settings body xs r

/-- A session that was started comes to what it should, if it is closed at its end. -/
theorem released_of_started {before : List Exchange} (hstart : ∃ x ∈ before, x.Starts)
    (hstop : .stop ∉ before.map Exchange.call)
    (hopened : before.filterMap Exchange.opened? = resources.reverse)
    (hclosed : before.filterMap Exchange.closed? = []) (horder : resources.reverse <+: [.browser, .context])
    (hclosing : Closing resources closing) (hends : Results settings body (before ++ closing) r) :
    Released settings body (before ++ closing) r := by
  obtain ⟨x, hx, hs⟩ := hstart
  have hstarted : ∃ x ∈ before ++ closing, x.Starts := ⟨x, List.mem_append_left _ hx, hs⟩
  have hopens : (before ++ closing).filterMap Exchange.opened? = resources.reverse := by
    rw [List.filterMap_append, hopened, hclosing.plain.1, List.append_nil]
  refine ⟨⟨fun _ => ?_, fun _ => hstarted⟩, fun _ => hstarted, hopens ▸ horder, ?_, hends⟩
  · refine ⟨before.map Exchange.call ++ resources.map Call.close, ?_, ?_⟩
    · rw [List.map_append, hclosing, List.append_assoc]
    · rw [List.mem_append, not_or]
      exact ⟨hstop, by simp⟩
  · rw [hopens, List.reverse_reverse, List.filterMap_append, hclosed, hclosing.closed]
    rfl

/-- A part that fails ends a session by its fault. -/
theorem NextPart.ends {before : List Exchange} {call : Call} {fault : CallFault}
    (h : NextPart settings before call resources) (hclosing : Closing resources closing) :
    Results settings body (before ++ [⟨call, .error fault⟩] ++ closing) (.error (launchFault fault)) := by
  cases fault with
  | refused m => exact .refused (by cases h <;> rfl)
  | crashed m =>
      have hrefusal : refusal? (before ++ [⟨call, .error (.crashed m)⟩]) = none := by cases h <;> rfl
      refine .broke ?_ (by cases h <;> simp [openingCalls])
        (List.mem_append_left _ (List.mem_append_right _ List.mem_cons_self))
      rw [refusal?_append, hrefusal, hclosing.plain.2]
      rfl

/-- A session that could not be opened has left nothing open. -/
theorem Unopened.released (h : Unopened settings xs f) : Released settings body xs (.error f) := by
  cases h with
  | unstarted fault =>
      have hnot : ¬ ∃ x ∈ [⟨.start, .error fault⟩], Exchange.Starts x := by
        rintro ⟨x, hx, -, reply, ho⟩
        rw [List.mem_singleton.mp hx] at ho
        cases ho
      refine ⟨⟨fun h => absurd h hnot, ?_⟩, ?_, List.nil_prefix, rfl, ?_⟩
      · rintro ⟨before, h, -⟩
        have hcall : [Call.start] = before ++ [Call.stop] := h
        have hlast := congrArg List.getLast? hcall
        rw [List.getLast?_append] at hlast
        cases hlast
      · rintro ⟨x, hx, hc⟩
        rw [List.mem_singleton.mp hx] at hc
        cases hc
      · cases fault with
        | refused m => exact .refused rfl
        | crashed m => exact .broke rfl (by simp [openingCalls]) List.mem_cons_self
  | @stopped fault before closing call opened part closes =>
      have hopened : (before ++ [(⟨call, .error fault⟩ : Exchange)]).filterMap Exchange.opened? =
          opened.reverse := by cases part <;> rfl
      have hclosed : (before ++ [(⟨call, .error fault⟩ : Exchange)]).filterMap Exchange.closed? = [] := by
        cases part <;> rfl
      have hstart : ∃ x ∈ before, x.Starts := by
        cases part <;> exact ⟨_, List.mem_cons_self, rfl, _, rfl⟩
      obtain ⟨x, hx, hs⟩ := hstart
      refine released_of_started ⟨x, List.mem_append_left _ hx, hs⟩ ?_ hopened hclosed ?_ closes
        (part.ends closes)
      · cases part <;> simp
      · cases part <;> simp

/-- **A session leaves nothing open**, if what is done in it does not open or close parts of it. -/
theorem Session.released (h : Session settings body xs r)
    (hbody : ∀ ys r, body ys r → ∀ y ∈ ys, Script.isSessionCall y.call = false) :
    Released settings body xs r := by
  cases h with
  | unopened h => exact h.released
  | @used r₀ r₁ r₂ r₃ ys closing _ said closes =>
      have hys := hbody ys r said
      obtain ⟨hopened, hclosed, hrefusal⟩ := plain_of_use hys
      refine released_of_started ⟨_, List.mem_cons_self, rfl, r₀, rfl⟩ ?_ ?_ ?_ (List.prefix_refl _)
        closes ?_
      · rw [List.map_append, List.mem_append, not_or]
        refine ⟨by simp [opening], fun h => ?_⟩
        obtain ⟨y, hy, hc⟩ := List.mem_map.mp h
        have hy := hys y hy
        rw [hc] at hy
        cases hy
      · rw [List.filterMap_append, hopened]
        rfl
      · rw [List.filterMap_append, hclosed]
        rfl
      · refine .asUsed r₀ r₁ r₂ r₃ ?_ rfl said
        rw [refusal?_append, refusal?_append, closes.plain.2, hrefusal]
        rfl

/-- **Every session leaves nothing open**: if what is done in it keeps off the parts of the session, and
    nothing breaks as it is closed, then it is stopped once and last exactly if it was started, what was
    opened is closed once and in reverse order, and it ends as refused exactly if one of its four stages
    was, and otherwise with what broke as it opened or with what was done in it, unchanged. -/
theorem released_of_use (b : Browser σ) (settings : Settings)
    (body : List Exchange → Except CaseFault α → Prop) (use : Casing σ α) (huse : Does b body use)
    (hbody : ∀ ys r, body ys r → ∀ y ∈ ys, Script.isSessionCall y.call = false) :
    Does b (fun xs r => Tidy xs → Released settings body xs r) (inSession b settings use) :=
  (does_session huse).mono fun _ _ h ht => (h ht).released hbody

end Case

/-! ## 4. Scripted browsers -/

/-- A scripted browser refuses to close at most, and always stops. -/
theorem Script.tidy_of_answers {sc : Script} {s s' : ScriptState} (h : sc.browser.Answers s xs s') :
    Case.Tidy xs := by
  refine h.forall_mem (p := fun x => x.closed?.isSome = true ∨ x.call = .stop → x.uncontained? = none) ?_
  intro s c hc
  cases c with
  | close resource =>
      show Exchange.uncontained? ⟨.close resource, if sc.failClose.contains resource then _ else _⟩ = none
      split <;> rfl
  | stop => rfl
  | _ => exact (hc.elim nofun nofun)

namespace Case

/-- A script by which the screenshot breaks and nothing can be closed. -/
def jammed : Script :=
  { failClose := [.context, .browser], page := { turns := { screenshot := [.crash] } } }

/-- A page that breaks and will not close is still released, and what broke leaves the session. -/
theorem released_jammed :
    let d : Drive ScriptState := { browser := jammed.start, now := ⟨0⟩ }
    ∃ d' xs, (inSession jammed.browser {} (capture jammed.browser)).run d =
        (.error (.escaped (.page (.crashed "screenshot crash"))), d') ∧
      d'.trace = openingCalls {} ++ [.screenshot] ++ closingCalls ∧ Talk jammed.browser d xs d' ∧
      Released {} (fun ys (_ : Except CaseFault (Option String)) => ys.map Exchange.call = [.screenshot]) xs
        (.error (.escaped (.page (.crashed "screenshot crash")))) := by
  intro d
  have hbody (ys : List Exchange) (_ : Except CaseFault (Option String))
      (h : ys.map Exchange.call = [.screenshot]) : ∀ y ∈ ys, Script.isSessionCall y.call = false := by
    intro y hy
    have hc : y.call ∈ [Call.screenshot] := h ▸ List.mem_map_of_mem hy
    rw [List.mem_singleton.mp hc]
    rfl
  obtain ⟨xs, htalk, hreleased⟩ := released_of_use jammed.browser {} _ (capture jammed.browser)
    ((does_capture jammed.browser).mono fun _ _ h => h.1) hbody d
  have hcaught : ((((inSession jammed.browser {} (capture jammed.browser)).run d).1.map fun _ => none).tryCatch
      fun f => .ok (some f)).toOption = some (some (.escaped (.page (.crashed "screenshot crash")))) := by
    decide +kernel
  have htrace : ((inSession jammed.browser {} (capture jammed.browser)).run d).2.trace =
      openingCalls {} ++ [.screenshot] ++ closingCalls := by decide +kernel
  generalize (inSession jammed.browser {} (capture jammed.browser)).run d = run at *
  obtain ⟨r, d'⟩ := run
  obtain rfl : r = .error (.escaped (.page (.crashed "screenshot crash"))) := by
    cases r with
    | error f => rw [Option.some.inj (Option.some.inj hcaught)]
    | ok => cases hcaught
  exact ⟨d', xs, rfl, htrace, htalk, hreleased (Script.tidy_of_answers htalk.answers)⟩

end Case

end StepRunner
