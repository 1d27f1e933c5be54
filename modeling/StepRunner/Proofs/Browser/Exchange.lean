import StepRunner.Browser.Script

/-!
# What is said to a browser

Whatever drives a browser speaks to it in `Exchange`s, a call and the answer to it. `Talk` tells which
exchanges lie between two moments; they are what the browser says to these calls (`Talk.unique`).

`Does` is what a computation does, wherever it starts: a condition on its exchanges and its outcome. It
goes along the computation (`Does.bind`), which leaves the calls that make it up (`Does.ask`).
-/

namespace StepRunner

/-! ## 1. Exchanges -/

/-- A call and the answer to it. -/
structure Exchange where
  call : Call
  outcome : Except CallFault Reply

variable {σ ε α β : Type} {b : Browser σ} {s s' s'' : σ} {d d' d'' : Drive σ} {xs ys : List Exchange}

/-- From a state to another, the browser answers as in the exchanges. -/
def Browser.Answers (b : Browser σ) : σ → List Exchange → σ → Prop
  | s, [], s' => s = s'
  | s, x :: xs, s' => (b.respond s x.call).1.outcome = x.outcome ∧
      b.Answers (b.respond s x.call).2 xs s'

theorem Browser.Answers.append (h : b.Answers s xs s') (h' : b.Answers s' ys s'') :
    b.Answers s (xs ++ ys) s'' := by
  induction xs generalizing s with
  | nil =>
      cases h
      exact h'
  | cons x xs ih => exact ⟨h.1, ih h.2⟩

/-- The answers are up to the browser. -/
theorem Browser.Answers.unique (h : b.Answers s xs s') (h' : b.Answers s ys s'')
    (hcalls : xs.map Exchange.call = ys.map Exchange.call) : xs = ys := by
  induction xs generalizing s ys with
  | nil => exact (List.map_eq_nil_iff.mp hcalls.symm).symm
  | cons x xs ih =>
      cases ys with
      | nil => cases hcalls
      | cons y ys =>
          obtain ⟨c, o⟩ := x
          obtain ⟨c', o'⟩ := y
          rw [List.map_cons, List.map_cons, List.cons.injEq] at hcalls
          obtain ⟨hc, hcalls⟩ := hcalls
          change c = c' at hc
          subst hc
          rw [ih h.2 h'.2 hcalls, ← show _ = o from h.1, ← show _ = o' from h'.1]

/-- What holds of all that a browser answers holds of the exchanges with it. -/
theorem Browser.Answers.forall_mem {p : Exchange → Prop} (hp : ∀ s c, p ⟨c, (b.respond s c).1.outcome⟩)
    (h : b.Answers s xs s') : ∀ x ∈ xs, p x := by
  induction xs generalizing s with
  | nil => exact nofun
  | cons x xs ih =>
      obtain ⟨c, o⟩ := x
      refine List.forall_mem_cons.mpr ⟨?_, ih h.2⟩
      rw [← show _ = o from h.1]
      exact hp s c

/-- Between two moments, these were the exchanges with the browser. -/
structure Talk (b : Browser σ) (d : Drive σ) (xs : List Exchange) (d' : Drive σ) : Prop where
  trace : d'.trace = d.trace ++ xs.map Exchange.call
  answers : b.Answers d.browser xs d'.browser

theorem Talk.silent (htrace : d'.trace = d.trace) (hbrowser : d'.browser = d.browser) :
    Talk b d [] d' :=
  ⟨by rw [htrace, List.map_nil, List.append_nil], hbrowser.symm⟩

theorem Talk.append (h : Talk b d xs d') (h' : Talk b d' ys d'') : Talk b d (xs ++ ys) d'' :=
  ⟨by rw [h'.trace, h.trace, List.map_append, List.append_assoc], h.answers.append h'.answers⟩

/-- **There is one account** of what was said. -/
theorem Talk.unique (h : Talk b d xs d') (h' : Talk b d ys d') : xs = ys :=
  h.answers.unique h'.answers (List.append_cancel_left (h.trace.symm.trans h'.trace))

/-! ## 2. What a computation does -/

/-- Wherever the computation starts, its exchanges and its outcome are of a kind. -/
def Does (b : Browser σ) (P : List Exchange → Except ε α → Prop) (m : ExceptT ε (Driving σ) α) : Prop :=
  ∀ d, ∃ xs, Talk b d xs (m.run d).2 ∧ P xs (m.run d).1

variable {P Q : List Exchange → Except ε α → Prop} {m : ExceptT ε (Driving σ) α}

theorem Does.mono (h : Does b P m) (hPQ : ∀ xs r, P xs r → Q xs r) : Does b Q m := by
  intro d
  obtain ⟨xs, htalk, hp⟩ := h d
  exact ⟨xs, htalk, hPQ xs _ hp⟩

/-- There is one account of what is said, so two of what is done agree on it. -/
theorem Does.and (h : Does b P m) (h' : Does b Q m) : Does b (fun xs r => P xs r ∧ Q xs r) m := by
  intro d
  obtain ⟨xs, htalk, hp⟩ := h d
  obtain ⟨ys, htalk', hq⟩ := h' d
  cases htalk.unique htalk'
  exact ⟨xs, htalk, hp, hq⟩

theorem Does.pure {a : α} (h : P [] (.ok a)) : Does b P (Pure.pure a) := fun _ =>
  ⟨[], .silent rfl rfl, h⟩

theorem Does.throw {f : ε} (h : P [] (.error f)) : Does b P (throw f) := fun _ =>
  ⟨[], .silent rfl rfl, h⟩

theorem Does.throw_bind {f : ε} {R : List Exchange → Except ε β → Prop}
    {next : α → ExceptT ε (Driving σ) β} (h : R [] (.error f)) :
    Does b R ((MonadExcept.throw f : ExceptT ε (Driving σ) α) >>= next) := fun _ =>
  ⟨[], .silent rfl rfl, h⟩

/-- A computation that goes on with what another gives. -/
theorem Does.bind {R : List Exchange → Except ε β → Prop} {next : α → ExceptT ε (Driving σ) β}
    (hm : Does b P m) (herror : ∀ xs f, P xs (.error f) → R xs (.error f))
    (hnext : ∀ xs a, P xs (.ok a) → Does b (fun ys r => R (xs ++ ys) r) (next a)) :
    Does b R (m >>= next) := by
  intro d
  obtain ⟨xs, htalk, hp⟩ := hm d
  show ∃ ys, Talk b d ys ((ExceptT.bindCont next (m.run d).1).run (m.run d).2).2 ∧
    R ys ((ExceptT.bindCont next (m.run d).1).run (m.run d).2).1
  cases hr : (m.run d).1 with
  | error f =>
      rw [hr] at hp
      exact ⟨xs, htalk, herror xs f hp⟩
  | ok a =>
      rw [hr] at hp
      obtain ⟨ys, htalk', hR⟩ := hnext xs a hp (m.run d).2
      exact ⟨xs ++ ys, htalk.append htalk', hR⟩

/-- A condition on what a computation gives, if it gives something. -/
theorem Does.bind_ok {R : List Exchange → β → Prop} {next : α → ExceptT ε (Driving σ) β} (hm : Does b P m)
    (hnext : ∀ xs a, P xs (.ok a) → Does b (fun ys r => ∀ a', r = .ok a' → R (xs ++ ys) a') (next a)) :
    Does b (fun xs r => ∀ a, r = .ok a → R xs a) (m >>= next) := by
  refine Does.bind hm ?_ hnext
  rintro xs f - a ⟨⟩

/-- A call is one exchange. -/
theorem Does.ask {c : Call} {P : List Exchange → Except ε (Except CallFault Reply) → Prop}
    (h : ∀ o, P [⟨c, o⟩] (.ok o)) : Does b P (StepRunner.ask b c : ExceptT ε (Driving σ) _) := fun _ =>
  ⟨[⟨c, _⟩], ⟨rfl, rfl, rfl⟩, h _⟩

/-- A computation that makes a call and goes on with the answer. -/
theorem Does.ask_bind {c : Call} {R : List Exchange → Except ε β → Prop}
    {next : Except CallFault Reply → ExceptT ε (Driving σ) β}
    (h : ∀ o, Does b (fun ys r => R (⟨c, o⟩ :: ys) r) (next o)) :
    Does b R ((StepRunner.ask b c : ExceptT ε (Driving σ) _) >>= next) := by
  refine Does.bind (P := fun xs r => ∃ o, xs = [⟨c, o⟩] ∧ r = .ok o) (Does.ask fun o => ⟨o, rfl, rfl⟩) ?_ ?_
  · rintro xs f ⟨o, -, ⟨⟩⟩
  · rintro xs o ⟨o', rfl, ⟨⟩⟩
    exact h o

/-- What leaves the browser alone says nothing to it. -/
theorem Does.silent {k : Driving σ α} (hquiet : ∀ d, (k d).2.trace = d.trace ∧ (k d).2.browser = d.browser)
    (h : ∀ a, P [] (.ok a)) : Does b P (liftM k : ExceptT ε (Driving σ) α) := fun d =>
  ⟨[], .silent (hquiet d).1 (hquiet d).2, h _⟩

theorem Does.note {text : String} {P : List Exchange → Except ε Unit → Prop} (h : P [] (.ok ())) :
    Does b P (StepRunner.note (σ := σ) text : ExceptT ε (Driving σ) Unit) :=
  Does.silent (fun _ => ⟨rfl, rfl⟩) fun _ => h

/-- A computation that goes on after leaving the browser alone. -/
theorem Does.silent_bind {k : Driving σ α} {R : List Exchange → Except ε β → Prop}
    {next : α → ExceptT ε (Driving σ) β}
    (hquiet : ∀ d, (k d).2.trace = d.trace ∧ (k d).2.browser = d.browser) (h : ∀ a, Does b R (next a)) :
    Does b R ((liftM k : ExceptT ε (Driving σ) α) >>= next) := by
  refine Does.bind (P := fun xs r => xs = [] ∧ ∃ a, r = .ok a) (Does.silent hquiet fun a => ⟨rfl, a, rfl⟩) ?_ ?_
  · rintro xs f ⟨-, a, ⟨⟩⟩
  · rintro xs a ⟨rfl, -⟩
    exact h a

theorem Does.note_bind {text : String} {R : List Exchange → Except ε β → Prop}
    {next : Unit → ExceptT ε (Driving σ) β} (h : Does b R (next ())) :
    Does b R ((liftM (StepRunner.note (σ := σ) text) : ExceptT ε (Driving σ) Unit) >>= next) :=
  Does.silent_bind (fun _ => ⟨rfl, rfl⟩) fun _ => h

theorem Does.report_bind {text : String} {R : List Exchange → Except ε β → Prop}
    {next : Unit → ExceptT ε (Driving σ) β} (h : Does b R (next ())) :
    Does b R ((liftM (StepRunner.report (σ := σ) text) : ExceptT ε (Driving σ) Unit) >>= next) :=
  Does.silent_bind (fun _ => ⟨rfl, rfl⟩) fun _ => h

theorem Does.get_bind {R : List Exchange → Except ε β → Prop} {next : Drive σ → ExceptT ε (Driving σ) β}
    (h : ∀ d, Does b R (next d)) :
    Does b R ((getThe (Drive σ) : ExceptT ε (Driving σ) (Drive σ)) >>= next) :=
  Does.silent_bind (k := getThe (Drive σ)) (fun _ => ⟨rfl, rfl⟩) h

/-- A computation that goes on with the outcome of another, whatever it is. -/
theorem Does.caught_bind {ε' : Type} {R : List Exchange → Except ε' β → Prop}
    {next : Except ε α → ExceptT ε' (Driving σ) β} (hm : Does b P m)
    (hnext : ∀ xs o, P xs o → Does b (fun ys r => R (xs ++ ys) r) (next o)) :
    Does b R ((ExceptT.lift m.run : ExceptT ε' (Driving σ) _) >>= next) := by
  have hcaught : Does b (fun xs r => ∃ o, r = .ok o ∧ P xs o)
      (ExceptT.lift m.run : ExceptT ε' (Driving σ) _) := by
    intro d
    obtain ⟨xs, htalk, hp⟩ := hm d
    exact ⟨xs, htalk, _, rfl, hp⟩
  refine Does.bind hcaught ?_ ?_
  · rintro xs f ⟨o, ⟨⟩, -⟩
  · rintro xs o ⟨o', ⟨⟩, hp⟩
    exact hnext xs o hp

/-! ## 3. What a run is made of -/

theorem run_bind_of_ok {next : α → ExceptT ε (Driving σ) β} {a : α} (h : m.run d = (.ok a, d')) :
    (m >>= next).run d = (next a).run d' := by
  show (ExceptT.bindCont next (m.run d).1).run (m.run d).2 = _
  rw [h]
  rfl

theorem run_bind_of_error {next : α → ExceptT ε (Driving σ) β} {f : ε} (h : m.run d = (.error f, d')) :
    (m >>= next).run d = (.error f, d') := by
  show (ExceptT.bindCont next (m.run d).1).run (m.run d).2 = _
  rw [h]
  rfl

theorem run_bind_congr {m' : ExceptT ε (Driving σ) α} (next : α → ExceptT ε (Driving σ) β)
    (h : m.run d = m'.run d') : (m >>= next).run d = (m' >>= next).run d' := by
  show (ExceptT.bindCont next (m.run d).1).run (m.run d).2 = _
  rw [h]
  rfl

theorem run_bind_get {next : Drive σ → ExceptT ε (Driving σ) α} :
    ((getThe (Drive σ) : ExceptT ε (Driving σ) _) >>= next).run d = (next d).run d := rfl

/-- A computation that succeeds went on with what another gave. -/
theorem run_bind_eq_ok {next : α → ExceptT ε (Driving σ) β} {r : β} :
    (m >>= next).run d = (.ok r, d') ↔
      ∃ a d₁, m.run d = (.ok a, d₁) ∧ (next a).run d₁ = (.ok r, d') := by
  cases hm : m.run d with
  | mk o d₁ =>
      cases o with
      | ok a =>
          rw [run_bind_of_ok hm]
          refine ⟨fun h => ⟨a, d₁, rfl, h⟩, ?_⟩
          rintro ⟨a', d₁', ⟨⟩, h⟩
          exact h
      | error f =>
          rw [run_bind_of_error hm]
          refine ⟨fun h => (nomatch h), ?_⟩
          rintro ⟨a', d₁', ⟨⟩, -⟩

end StepRunner
