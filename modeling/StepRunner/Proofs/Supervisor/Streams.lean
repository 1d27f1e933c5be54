import StepRunner.Proofs.News
import StepRunner.Proofs.Supervisor.Faults

/-!
# What a subscriber reads

A stream that is opened on a run in memory holds, in the end, what its observers are owed for the states
of the run from then on, and is over when the run is; a subscriber who leaves early has read a part of
that.

* `Supervisor.Delivers`: what a subscriber reads and still finds in his stream is what he is owed;
* `Supervisor.Succeeded`: the run left memory before it had ended, and a later run of the same id went
  on. Only then does a stream hold more than it should;
* `delivers_stream`: all of this, for every history in which no save breaks.
-/

namespace StepRunner.Supervisor

variable {s : Supervisor} {id : String} {st st' : RunState} {t : Change} {m : Move} {n : Nat}
  {closed : Bool} {events law law' : List Event} {h : List Move} {ends astray : Prop}

/-! ## 1. Deliveries -/

/-- What a subscriber reads in a history, and what is in the stream at its end, is part of what is owed,
    and all of it if he stays; the stream is over where that `ends`, or he left. The history may lead
    the stream `astray`: it holds something else then, if he stays. -/
def Delivers (s : Supervisor) (n : Nat) (id : String) (h : List Move) (owed : List Event)
    (ends astray : Prop) : Prop :=
  ∃ closed rest, (s.after h).broadcaster.Streams n id closed rest ∧
    (¬ astray → s.yielded n h ++ rest <+: owed ∧ (closed = true ↔ .unsubscribe n ∈ h ∨ ends)) ∧
    (.unsubscribe n ∉ h → (s.yielded n h ++ rest = owed ↔ ¬ astray))

theorem delivers_nil (h : s.broadcaster.Streams n id closed events) (hc : closed = true ↔ ends)
    (ha : ¬ astray) : s.Delivers n id [] events ends astray := by
  refine ⟨closed, events, h, fun _ => ⟨List.prefix_rfl, ?_⟩, fun _ => ⟨fun _ => ha, fun _ => rfl⟩⟩
  simpa using hc

/-- **One move more**: what is read in it is owed first. -/
theorem Delivers.cons (hd : (s.perform m).Delivers n id h law ends astray) (hm : m ≠ .unsubscribe n)
    (hl : s.reads n m ++ law = law') : s.Delivers n id (m :: h) law' ends astray := by
  subst hl
  obtain ⟨closed, rest, hstr, hpart, hall⟩ := hd
  have hmem : Move.unsubscribe n ∈ m :: h ↔ Move.unsubscribe n ∈ h := by
    rw [List.mem_cons, or_iff_right (Ne.symm hm)]
  refine ⟨closed, rest, hstr, ?_, ?_⟩
  · rw [hmem, yielded, List.append_assoc, List.prefix_append_right_inj]
    exact hpart
  · rw [hmem, yielded, List.append_assoc, List.append_cancel_left_eq]
    exact hall

/-- What is owed, where it ends and what leads astray can be put in other words. -/
theorem Delivers.congr {ends' astray' : Prop} (hd : s.Delivers n id h law ends astray)
    (he : ends ↔ ends') (ha : astray ↔ astray') : s.Delivers n id h law ends' astray' := by
  rw [← propext he, ← propext ha]
  exact hd

/-- A stream that is closed holds what it holds. -/
theorem yielded_of_closed (hs : s.Sound) (hstr : s.broadcaster.Streams n id true events) (h : List Move) :
    ∃ rest, (s.after h).broadcaster.Streams n id true rest ∧ s.yielded n h ++ rest = events := by
  induction h generalizing s events with
  | nil => exact ⟨events, hstr, rfl⟩
  | cons m h ih =>
      obtain ⟨rest₁, hstr₁, e₁⟩ := streams_frame hs (m := m) hstr (.inl rfl)
      obtain ⟨rest, hstr', e⟩ := ih (sound_perform hs m) hstr₁
      exact ⟨rest, hstr', by rw [yielded, List.append_assoc, e, e₁]⟩

theorem delivers_of_closed (hs : s.Sound) (hstr : s.broadcaster.Streams n id true events)
    (h : List Move) (he : ends) (ha : ¬ astray) : s.Delivers n id h events ends astray := by
  obtain ⟨rest, hstr', e⟩ := yielded_of_closed hs hstr h
  refine ⟨true, rest, hstr', fun _ => ⟨?_, ?_⟩, fun _ => ⟨fun _ => ha, fun _ => e⟩⟩
  · exact e ▸ List.prefix_rfl
  · simp [he]

/-- A subscriber who leaves has part of what he is owed. -/
theorem delivers_of_unsubscribe (hs : s.Sound) (hstr : s.broadcaster.Streams n id closed events)
    (h : List Move) (hl : events <+: law) : s.Delivers n id (.unsubscribe n :: h) law ends astray := by
  have hclose : (s.perform (.unsubscribe n)).broadcaster.Streams n id true events := hstr.close
  obtain ⟨rest, hstr', e⟩ := yielded_of_closed (sound_perform hs (.unsubscribe n)) hclose h
  refine ⟨true, rest, hstr', fun _ => ⟨?_, ?_⟩, fun hm => absurd List.mem_cons_self hm⟩
  · show s.reads n (.unsubscribe n) ++ (s.perform (.unsubscribe n)).yielded n h ++ rest <+: law
    rw [show s.reads n (.unsubscribe n) = [] from rfl, List.nil_append, e]
    exact hl
  · simp

/-- A run that does not stay as it is changes on an occasion. -/
theorem exists_change? (hc : ¬ ∀ o, m = .occur id o → s.change? id o = none) :
    ∃ o, m = .occur id o ∧ ∃ t, s.change? id o = some t := by
  rw [not_forall] at hc
  obtain ⟨o, hc⟩ := hc
  rw [Classical.not_imp] at hc
  exact ⟨o, hc.1, Option.ne_none_iff_exists'.mp hc.2⟩

/-- Whatever happens, a stream loses nothing but what is read. -/
theorem yielded_append (hs : s.Sound) (hstr : s.broadcaster.Streams n id closed events)
    (h : List Move) : ∃ closed' rest more, (s.after h).broadcaster.Streams n id closed' rest ∧
      s.yielded n h ++ rest = events ++ more := by
  induction h generalizing s closed events with
  | nil => exact ⟨closed, events, [], hstr, (List.append_nil _).symm⟩
  | cons m h ih =>
      have step : ∃ closed₁ rest₁ more₁, (s.perform m).broadcaster.Streams n id closed₁ rest₁ ∧
          s.reads n m ++ rest₁ = events ++ more₁ := by
        by_cases hm : m ≠ .unsubscribe n ∧ ∀ o, m = .occur id o → s.change? id o = none
        · obtain ⟨rest₁, hstr₁, e₁⟩ := streams_frame hs hstr (.inr hm)
          exact ⟨closed, rest₁, [], hstr₁, e₁.trans (List.append_nil _).symm⟩
        · rw [not_and_or, not_not] at hm
          rcases hm with rfl | hm
          · exact ⟨true, events, [], hstr.close, (List.append_nil _).symm⟩
          · obtain ⟨o, rfl, t, hc⟩ := exists_change? hm
            rw [broadcaster_of_changed hc]
            split
            · obtain ⟨closed₁, more, hstr₁⟩ := hstr.publishAll_append hs.broadcaster
              exact ⟨closed₁, _, more, hstr₁, rfl⟩
            · exact ⟨closed, events, [], hstr, (List.append_nil _).symm⟩
      obtain ⟨closed₁, rest₁, more₁, hstr₁, e₁⟩ := step
      obtain ⟨closed', rest, more, hstr', e⟩ := ih (sound_perform hs m) hstr₁
      refine ⟨closed', rest, more₁ ++ more, hstr', ?_⟩
      rw [yielded, List.append_assoc, e, ← List.append_assoc, e₁, List.append_assoc]

/-! ## 2. A run goes on without its observers -/

/-- Some run of the id goes on. -/
def Stirs (s : Supervisor) (id : String) (h : List Move) : Prop :=
  ∃ h₁ h₂ run, h = h₁ ++ h₂ ∧ run ∈ (s.after h₁).stay id h₂ ∧ run.status ≠ .pending

theorem not_stirs_nil (hp : ∀ run, s.run? id = some run → run.status = .pending) : ¬ s.Stirs id [] := by
  rintro ⟨h₁, h₂, run, e, hr, hne⟩
  obtain ⟨rfl, rfl⟩ := List.append_eq_nil_iff.mp e.symm
  rw [stay, Option.mem_toList] at hr
  exact hne (hp run hr)

theorem stirs_cons : s.Stirs id (m :: h) ↔
    (∃ run ∈ s.stay id (m :: h), run.status ≠ .pending) ∨ (s.perform m).Stirs id h := by
  constructor
  · rintro ⟨h₁, h₂, run, e, hr, hne⟩
    cases h₁ with
    | nil =>
        obtain rfl : m :: h = h₂ := e
        exact .inl ⟨run, hr, hne⟩
    | cons m' h₁ =>
        obtain ⟨rfl, rfl⟩ := List.cons.inj e
        exact .inr ⟨h₁, h₂, run, rfl, hr, hne⟩
  · rintro (⟨run, hr, hne⟩ | ⟨h₁, h₂, run, rfl, hr, hne⟩)
    · exact ⟨[], m :: h, run, rfl, hr, hne⟩
    · exact ⟨m :: h₁, h₂, run, rfl, hr, hne⟩

/-- Where a run is left pending by a move, only what comes then can go on. -/
theorem stirs_cons_of_pending (hs : s.Sound)
    (hp : ∀ st st', s.state? id = some st → s.Became m id st' →
      st.run.status = .pending ∧ st'.run.status = .pending) :
    s.Stirs id (m :: h) ↔ (s.perform m).Stirs id h := by
  rw [stirs_cons]
  refine ⟨?_, .inr⟩
  rintro (⟨run, hr, hne⟩ | hst)
  · cases hst : s.state? id with
    | none =>
        rw [stay_of_none (run?_eq_none.mpr hst)] at hr
        cases hr
    | some st =>
        obtain ⟨st', hb, hstay⟩ := stay_step hs hst m
        obtain ⟨hpend, hpend'⟩ := hp st st' hst hb
        rcases hstay with ⟨-, e⟩ | ⟨-, -, -, e⟩
        · rw [e, List.mem_cons] at hr
          rcases hr with rfl | hr
          · exact absurd hpend hne
          · exact ⟨[], h, run, rfl, hr, hne⟩
        · rw [e, List.mem_cons, List.mem_singleton] at hr
          rcases hr with rfl | rfl
          · exact absurd hpend hne
          · exact absurd hpend' hne
  · exact hst

/-- What a change makes of the run, in memory or as it leaves it. -/
theorem run_of_became {o : Occasion} (hc : s.change? id o = some t)
    (hb : s.Became (.occur id o) id st') : st'.run = t.next.run := by
  cases hb with
  | kept _ _ hm =>
      rw [hm o rfl] at hc
      cases hc
  | registered _ hm => cases hm
  | changed st₀ o' t' hm _ hc' _ =>
      cases hm
      rw [hc] at hc'
      cases hc'
      exact run_outcome

/-- No change means that a run is the same, or has just come. -/
theorem run_of_became_of_none (hc : ∀ o, m = .occur id o → s.change? id o = none)
    (hb : s.Became m id st') : s.run? id = some st'.run ∨ st'.run.status = .pending := by
  cases hb with
  | kept _ hk _ => exact .inl (run?_of_state? hk)
  | registered run _ _ hp _ => exact .inr hp
  | changed st₀ o t hm _ hc' _ =>
      rw [hc o hm] at hc'
      cases hc'

/-- A run that goes on in a change goes on in the history. -/
theorem stirs_of_change? {o : Occasion} (hs : s.Sound) (hst : s.state? id = some st)
    (hc : s.change? id o = some t) (hne : t.next.run.status ≠ .pending) :
    s.Stirs id (.occur id o :: h) := by
  obtain ⟨st', hb, hstay⟩ := stay_step hs hst (.occur id o)
  refine ⟨[], _, st'.run, rfl, ?_, by rwa [run_of_became hc hb]⟩
  rw [after_nil]
  rcases hstay with ⟨hst', e⟩ | ⟨-, -, -, e⟩
  · rw [e]
    refine List.mem_cons_of_mem _ (List.mem_of_head? ?_)
    rw [head?_stay (sound_perform hs _), run?_of_state? hst']
  · rw [e]
    exact List.mem_cons_of_mem _ List.mem_cons_self

/-- A stream that takes news of another run holds more than is owed. -/
theorem delivers_of_astray {o : Occasion} {more : List Event} (hs : s.Sound)
    (hstr : (s.perform (.occur id o)).broadcaster.Streams n id closed (events ++ more))
    (hm : more ≠ []) (ha : astray) : s.Delivers n id (.occur id o :: h) events ends astray := by
  obtain ⟨closed, rest, more', hstr', e⟩ := yielded_append (sound_perform hs _) hstr h
  refine ⟨closed, rest, hstr', fun hn => absurd ha hn, fun _ => iff_of_false (fun heq => ?_) (not_not.mpr ha)⟩
  have heq : (s.perform (.occur id o)).yielded n h ++ rest = events := heq
  rw [e, List.append_assoc] at heq
  exact hm (List.append_eq_nil_iff.mp (List.append_right_eq_self.mp heq)).1

/-- **A stream whose run has left memory**, or is another one that waits, stays as it is, unless a run of
    the id goes on. -/
theorem delivers_of_stray (hs : s.Sound) (hu : s.Unbroken h)
    (hp : ∀ run, s.run? id = some run → run.status = .pending)
    (hstr : s.broadcaster.Streams n id false events) :
    s.Delivers n id h events False (s.Stirs id h) := by
  induction h generalizing s events with
  | nil => exact delivers_nil hstr (by simp) (not_stirs_nil hp)
  | cons m h ih =>
      obtain ⟨hb, hu⟩ := hu
      have hs' := sound_perform hs m
      -- where the move leaves the run pending, the rest of the history decides
      have quiet {rest} (hm : m ≠ .unsubscribe n) (hpend : ∀ st', s.Became m id st' → st'.run.status = .pending)
          (hstr' : (s.perform m).broadcaster.Streams n id false rest) (e : s.reads n m ++ rest = events) :
          s.Delivers n id (m :: h) events False (s.Stirs id (m :: h)) := by
        refine ((ih hs' hu (fun run hr => ?_) hstr').cons hm e).congr Iff.rfl
          (stirs_cons_of_pending hs fun st st' hst hst' => ?_).symm
        · obtain ⟨st', hst', rfl⟩ := run?_eq_some.mp hr
          exact hpend st' (became_of_state? hst')
        · exact ⟨hp _ (run?_of_state? hst), hpend st' hst'⟩
      by_cases hm : m = .unsubscribe n
      · subst hm
        exact delivers_of_unsubscribe hs hstr h List.prefix_rfl
      by_cases hc : ∀ o, m = .occur id o → s.change? id o = none
      · obtain ⟨rest, hstr', e⟩ := streams_frame hs hstr (.inr ⟨hm, hc⟩)
        exact quiet hm (fun st' hst' => (run_of_became_of_none hc hst').elim (hp _) fun h => h) hstr' e
      · obtain ⟨o, rfl, t, hc⟩ := exists_change? hc
        obtain ⟨st, hst, hg⟩ := change?_eq_some hc
        have hpend := hp _ (run?_of_state? hst)
        have hopen : (!st.run.isOpen) = false := by rw [Run.isOpen_of_pending hpend]; rfl
        have hstr' := streams_occur hs hst hc (keep_of_not_breaks hc hb) (hopen ▸ hstr)
        rcases (RunState.turns_of_goes hg (hs.fits id st hst)).news_ne_nil with ⟨hrun, hnews⟩ | ⟨hne, hnews⟩
        · rw [hnews, hrun, hopen, List.map_nil, List.append_nil] at hstr'
          exact quiet hm (fun st' hst' => by rw [run_of_became hc hst', hrun, hpend]) hstr' rfl
        · exact delivers_of_astray hs hstr' (mt List.map_eq_nil_iff.mp hnews)
            (stirs_of_change? hs hst hc hne)

/-! ## 3. A run in memory -/

/-- A run leaves memory before it has ended, and a later one of its id goes on. -/
def Succeeded (s : Supervisor) (id : String) (h : List Move) : Prop :=
  ∃ h₁ m h₂, h = h₁ ++ m :: h₂ ∧ s.Holds id h₁ ∧ ((s.after h₁).perform m).run? id = none ∧
    (∃ run, (s.after h₁).parting? id m = some run ∧ run.isOpen = true) ∧
    ((s.after h₁).perform m).Stirs id h₂

theorem not_succeeded_nil : ¬ s.Succeeded id [] := by
  rintro ⟨h₁, m, h₂, e, -⟩
  cases h₁ <;> cases e

/-- As long as a run is in memory, nothing has come after it. -/
theorem succeeded_cons_of_held (hr : (s.run? id).isSome = true)
    (hr' : ((s.perform m).run? id).isSome = true) :
    s.Succeeded id (m :: h) ↔ (s.perform m).Succeeded id h := by
  constructor
  · rintro ⟨h₁, m', h₂, e, hh, hn, hrest⟩
    cases h₁ with
    | nil =>
        obtain ⟨rfl, rfl⟩ := List.cons.inj e
        rw [after_nil] at hn
        rw [hn] at hr'
        cases hr'
    | cons m'' h₁ =>
        obtain ⟨rfl, rfl⟩ := List.cons.inj e
        exact ⟨h₁, m', h₂, rfl, hh.2, hn, hrest⟩
  · rintro ⟨h₁, m', h₂, rfl, hh, hrest⟩
    exact ⟨m :: h₁, m', h₂, rfl, ⟨hr, hh⟩, hrest⟩

/-- Once a run has left memory, what comes after it decides. -/
theorem succeeded_cons_of_left {run : Run} (hr : (s.run? id).isSome = true)
    (hn : (s.perform m).run? id = none) (hp : s.parting? id m = some run) :
    s.Succeeded id (m :: h) ↔ run.isOpen = true ∧ (s.perform m).Stirs id h := by
  constructor
  · rintro ⟨h₁, m', h₂, e, hh, -, ⟨run', hp', ho⟩, hst⟩
    cases h₁ with
    | nil =>
        obtain ⟨rfl, rfl⟩ := List.cons.inj e
        rw [after_nil, hp] at hp'
        cases hp'
        exact ⟨ho, hst⟩
    | cons m'' h₁ =>
        obtain ⟨rfl, rfl⟩ := List.cons.inj e
        have hh := hh.2
        have hsome : ((s.perform m).run? id).isSome = true := by
          cases h₁ with
          | nil => exact hh
          | cons => exact hh.1
        rw [hn] at hsome
        cases hsome
  · rintro ⟨ho, hst⟩
    exact ⟨[], m, h, rfl, hr, hn, ⟨run, hp, ho⟩, hst⟩

/-- **What one move makes of a stream on a run in memory**: it takes the news, and closes with the run. -/
theorem streams_became (hs : s.Sound) (hb : ¬ s.Breaks m) (hm : m ≠ .unsubscribe n)
    (hst : s.state? id = some st) (hst' : s.Became m id st')
    (hstr : s.broadcaster.Streams n id (!st.run.isOpen) events) :
    ∃ news rest, st.run.Turns s.now st'.run news ∧
      (s.perform m).broadcaster.Streams n id (!st'.run.isOpen) rest ∧
      s.reads n m ++ rest = events ++ news.map (⟨id, ·⟩) := by
  cases hst' with
  | kept _ hk hc =>
      rw [hst] at hk
      cases hk
      obtain ⟨rest, hstr', e⟩ := streams_frame hs hstr (.inr ⟨hm, hc⟩)
      exact ⟨[], rest, .stays, hstr', e.trans (List.append_nil _).symm⟩
  | registered run _ _ _ hn =>
      rw [hst] at hn
      cases hn
  | changed st₀ o t ho hk hc hg =>
      rw [hst] at hk
      cases hk
      subst ho
      refine ⟨t.news, events ++ t.news.map (⟨id, ·⟩), ?_, ?_, rfl⟩
      · rw [run_outcome]
        exact RunState.turns_of_goes hg (hs.fits id st hst)
      · rw [run_outcome]
        exact streams_occur hs hst hc (keep_of_not_breaks hc hb) hstr

/-- **What a stream on a run in memory holds**: what it held, and what is owed for the states of the
    run. -/
theorem delivers_of_held (hs : s.Sound) (hu : s.Unbroken h) (hst : s.state? id = some st)
    (hd : (st.run.testCases.map (·.id)).Nodup)
    (hstr : s.broadcaster.Streams n id (!st.run.isOpen) events) :
    s.Delivers n id h (events ++ (st.run.told (s.stay id h).tail).map (⟨id, ·⟩))
      (∃ run ∈ s.stay id h, run.status.isTerminal = true) (s.Succeeded id h) := by
  induction h generalizing s st events with
  | nil =>
      rw [stay_nil (run?_of_state? hst), List.tail_cons, Run.told_nil, List.map_nil,
        List.append_nil]
      refine delivers_nil hstr ?_ not_succeeded_nil
      simp [Run.isOpen]
  | cons m h ih =>
      obtain ⟨hb, hu⟩ := hu
      have hs' := sound_perform hs m
      by_cases hm : m = .unsubscribe n
      · subst hm
        exact delivers_of_unsubscribe hs hstr h (List.prefix_append _ _)
      obtain ⟨st', hst', hstay⟩ := stay_step hs hst m
      obtain ⟨news, rest, hturn, hstr', e⟩ := streams_became hs hb hm hst hst' hstr
      have hr := isSome_run? hst
      have hch : (s.stay id (m :: h)).IsChain Run.Becomes := isChain_stay hs (m :: h)
      rcases hstay with ⟨hheld, hstay⟩ | ⟨hleft, -, hp, hstay⟩
      · -- the run is still there
        have hr' := run?_of_state? hheld
        obtain ⟨later, hlater⟩ : ∃ later, (s.perform m).stay id h = st'.run :: later :=
          List.head?_eq_some_iff.mp (by rw [head?_stay hs', hr'])
        rw [hstay, hlater] at hch ⊢
        have hrest := ih hs' hu hheld (hturn.testCases_eq ▸ hd) hstr'
        rw [hlater] at hrest
        refine (hrest.cons hm ?_).congr (Run.exists_isTerminal_cons hturn).symm
          (succeeded_cons_of_held hr (isSome_run? hheld)).symm
        rw [List.tail_cons, List.tail_cons, ← List.append_assoc, e,
          Run.told_cons hturn (List.isChain_cons_cons.mp hch).2 hd, List.map_append, List.append_assoc]
      · -- the run leaves memory
        have hn := run?_eq_none.mpr hleft
        have htold : st.run.told [st'.run] = news := by
          rw [Run.told_cons hturn (.singleton _) hd, Run.told_nil, List.append_nil]
        have hsucc := succeeded_cons_of_left (h := h) hr hn hp
        rw [hstay, List.tail_cons, htold]
        cases ho : st'.run.isOpen with
        | false =>
            rw [ho] at hstr' hsucc
            refine (delivers_of_closed hs' hstr' h ?_ ?_).cons hm e
            · exact ⟨st'.run, by simp, Run.not_isOpen_iff.mp ho⟩
            · simp [hsucc]
        | true =>
            rw [ho] at hstr' hsucc
            refine ((delivers_of_stray hs' hu (fun run hr => ?_) hstr').cons hm e).congr ?_ ?_
            · rw [hn] at hr
              cases hr
            · rw [Run.exists_isTerminal_cons hturn]
              simp [Run.isOpen_iff.mp ho]
            · simp [hsucc]

/-! ## 4. Time limits -/

/-- **A run leaves memory before it has ended** only for a time limit beyond the format. -/
theorem isBeyond_of_succeeded (hs : s.Sound) (hu : s.Unbroken h)
    (hinv : ∀ st, s.state? id = some st → st.Stranded → st.run.config.timeLimit.IsBeyond)
    (hst : s.state? id = some st) (hsucc : s.Succeeded id h) :
    st.run.config.timeLimit.IsBeyond := by
  induction h generalizing s st with
  | nil => exact absurd hsucc not_succeeded_nil
  | cons m h ih =>
      obtain ⟨st', hb, hstay⟩ := stay_step hs hst m
      obtain ⟨news, hturn⟩ := turns_of_became hs hst hb
      have hr := isSome_run? hst
      have hinv' {st'} (h' : s.Became m id st') := isBeyond_of_became hs hu.1 hinv h'
      rw [← hturn.config_eq]
      rcases hstay with ⟨hheld, -⟩ | ⟨hleft, hrest, hp, -⟩
      · have hr' := run?_of_state? hheld
        rw [succeeded_cons_of_held hr (isSome_run? hheld)] at hsucc
        exact ih (sound_perform hs m) hu.2 (fun _ h => hinv' (became_of_state? h)) hheld hsucc
      · rw [succeeded_cons_of_left hr (run?_eq_none.mpr hleft) hp] at hsucc
        exact hinv' hb (RunState.stranded_of_atRest (hs.fits_of_became hb) hrest hsucc.1)

/-! ## 5. The law of streams -/

/-- A stream that was just opened on a run in memory, and the run in it. -/
theorem streams_subscribe (hst : s.state? id = some st) : ∃ n,
    s.subscribe id = (.ok n, s.perform (.subscribe id)) ∧
      (s.perform (.subscribe id)).state? id = some st ∧
      (s.perform (.subscribe id)).broadcaster.Streams n id (!st.run.isOpen) [Event.progressOf st.run] := by
  obtain ⟨hok, hb⟩ := broadcaster_subscribe hst
  refine ⟨s.broadcaster.subscriptions.length, by rw [← hok]; rfl, ?_, ?_⟩
  · obtain ⟨b, e, -⟩ := subscribe_frame s id
    show (s.subscribe id).2.state? id = some st
    rw [e]
    exact hst
  · show (s.subscribe id).2.broadcaster.Streams _ id _ _
    have hstr := Broadcaster.streams_subscribe s.broadcaster id [Event.progressOf st.run]
    rw [hb]
    cases st.run.isOpen with
    | true => exact hstr
    | false => exact hstr.close

/-- A stream on a run that was lost while it was running tells of the run that takes its id: it has a
    second start. -/
theorem started_again :
    let s := (Sample.supervisor 0 Sample.diskFull).after
      [.register (Sample.run (Number.tenTo 400)), .subscribe Sample.runId]
    let future := Sample.lost.tail ++ [.register (Sample.run 1000), .occur Sample.runId .launch,
      .occur Sample.runId .begin]
    s.Unbroken future ∧
      (s.stay Sample.runId future).map (·.status) = [.pending, .pending, .running, .running, .running] ∧
      ((s.after future).broadcaster.sub? 0).map (·.queue.map fun
        | .event e => e.happening.typeName
        | .endOfStream => "") = some ["progress", "started", "started"] := by
  decide +kernel

end StepRunner.Supervisor
