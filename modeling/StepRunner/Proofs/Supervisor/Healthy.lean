import StepRunner.Proofs.Supervisor.Performance
import StepRunner.Proofs.Supervisor.Retention

/-!
# Healthy runs

A run is healthy if every save succeeds and nothing comes between it and its end. Under settings from an
environment it is complete at the end, unless they leave it no slot, or its time limit is beyond the
binary64 format.

* `Settings.ofEnvironment_eq_ok`: the bounds that an environment cannot break. There is none below for the
  number of workers;
* `RunState.Starves`: how a run stands that gets no slot; every change keeps it (`steers_starves`), so it
  fails;
* `Supervisor.ended_of_state?`: nobody has to wait for a run whose dispatch has ended;
* `Supervisor.healthy_ends`: where a healthy run ends.
-/

namespace StepRunner

/-! ## 1. Settings of an environment -/

/-- Whatever the variables say, there is an upper bound for the workers, and a queue for eviction. -/
theorem Settings.ofEnvironment_eq_ok {environment : Environment} {settings : Settings}
    (h : ofEnvironment environment = .ok settings) :
    settings.maxConcurrency ≤ maxWorkers ∧ 0 ≤ settings.retainedRuns := by
  simp only [ofEnvironment, bind, Except.bind] at h
  repeat' split at h
  all_goals cases h
  exact ⟨min_le_right _ _, le_max_right _ _⟩

/-! ## 2. Runs without a slot -/

/-- What breaks where there is no slot. -/
def noWorkers : String := "max_workers must be greater than 0"

/-- Where a run without a slot stands, if nothing comes from outside: its pool does not open, so it
    fails; beyond the limit it is left running. -/
def Dispatch.InVain (limit : TimeLimit) (run : Run) : Dispatch → Prop
  | .idle | .called => run.status = .pending
  | .begun => run.status = .running
  | .active _ => False
  | .broken message => run.status = .running ∧ message = noWorkers ∧ ¬ limit.IsBeyond
  | .leaving | .ended =>
    run.status = .failed ∧ run.error = some ("Dispatcher error: " ++ noWorkers) ∧ ¬ limit.IsBeyond ∨
      run.status = .running ∧ limit.IsBeyond

/-- How a run stands that came from another without a slot. -/
structure RunState.Starves (origin : Run) (st : RunState) : Prop where
  config : st.run.config = origin.config
  inVain : st.dispatch.InVain origin.config.timeLimit st.run

/-- How often a run without a slot goes on at most. -/
def Dispatch.toGiveUp : Dispatch → Nat
  | .idle => 5
  | .called => 4
  | .begun => 3
  | .broken _ => 2
  | .leaving => 1
  | .active _ | .ended => 0

namespace RunState

variable {st : RunState} {settings : Settings} {now : Instant} {o : Occasion} {t : Change}
  {origin : Run} {script : String → CaseEnd}

/-- Without a slot no pool opens. -/
theorem opens_of_no_slot (hslots : settings.slots st.run.config < 1) :
    (st.opens settings now).next.dispatch =
      if (st.run.config.timeLimit.deadline? now).isNone then .leaving else .broken noWorkers := by
  unfold opens
  cases st.run.config.timeLimit.deadline? now with
  | none => rfl
  | some deadline =>
      show (if settings.slots st.run.config ≤ 0 then _ else _) = _
      rw [if_pos (by omega)]
      rfl

/-- **Every change keeps a run without a slot on its way**, as long as nothing comes from outside. -/
theorem starves_of_on (hon : st.on settings now o = some t)
    (hslots : settings.slots origin.config < 1) (ho : o.Follows script) (h : st.Starves origin) :
    t.next.Starves origin ∧ t.next.dispatch.toGiveUp + 1 ≤ st.dispatch.toGiveUp := by
  have hs := h.inVain
  have hc := h.config
  rw [← hc] at hslots
  have hopened (hd : st.dispatch = .begun) (e : o = .openPool) : t.next.dispatch =
      if (st.run.config.timeLimit.deadline? now).isNone then .leaving else .broken noWorkers := by
    subst e
    rw [on_openPool hd] at hon
    cases hon
    exact opens_of_no_slot hslots
  cases goes_of_on hon with
  | launch hd =>
      rw [hd] at hs ⊢
      exact ⟨⟨hc, hs⟩, Nat.le_refl _⟩
  | begin hd _ =>
      rw [hd]
      exact ⟨⟨hc, rfl⟩, Nat.le_refl _⟩
  | beginLate hd hn =>
      rw [hd] at hs
      exact absurd hs hn
  | openPool slots deadline lines hd hl =>
      have hnext := hopened hd rfl
      rw [hl] at hnext
      cases hnext
  | openNone message deadline lines hd hl =>
      have hnext := hopened hd rfl
      rw [hl] at hnext
      obtain rfl : message = noWorkers := Dispatch.broken.inj hnext
      rw [hd] at hs ⊢
      refine ⟨⟨hc, hs, rfl, fun hb => ?_⟩, Nat.le_refl _⟩
      rw [← hc] at hb
      rw [TimeLimit.deadline?_eq_none_iff.mpr hb] at hl
      cases hl
  | openNever lines hd hl =>
      rw [TimeLimit.deadline?_eq_none_iff, hc] at hl
      rw [hd] at hs ⊢
      exact ⟨⟨hc, .inr ⟨hs, hl⟩⟩, Nat.le_succ 2⟩
  | giveUp message hd _ =>
      rw [hd] at hs ⊢
      obtain ⟨-, rfl, hl⟩ := hs
      exact ⟨⟨hc, .inl ⟨rfl, rfl, hl⟩⟩, Nat.le_refl _⟩
  | giveUpLate message hd hopen =>
      rw [hd] at hs
      rw [Run.isOpen_of_running hs.1] at hopen
      cases hopen
  | depart hd =>
      rw [hd] at hs ⊢
      exact ⟨⟨hc, hs⟩, Nat.le_refl _⟩
  | fill _ hd | handIn _ _ _ _ hd | record _ _ _ _ hd | drop _ _ _ _ _ hd | noSession _ _ _ _ hd
  | complete _ hd | stop _ hd =>
      rw [hd] at hs
      exact hs.elim
  | expire | cancel => exact ho.elim

/-- A run without a slot with which nothing goes on has been put to rest. -/
theorem ended_of_starves (h : st.Starves origin)
    (hr : ∀ o : Occasion, o.Follows script → st.goesOn settings now o = false) :
    st.dispatch = .ended := by
  have hs := h.inVain
  have hnot {o : Occasion} (ho : o.Follows script) (hf : o.isFill = false) :
      st.on settings now o = none := on_eq_none_of_not_goesOn hf (hr o ho)
  cases hd : st.dispatch with
  | ended => rfl
  | active p =>
      rw [hd] at hs
      exact hs.elim
  | idle =>
      have hon := hnot (o := .launch) trivial rfl
      rw [on.eq_def, hd] at hon
      cases hon
  | called =>
      have hon := hnot (o := .begin) trivial rfl
      rw [on.eq_def, hd] at hon
      cases hon
  | begun =>
      have hon := hnot (o := .openPool) trivial rfl
      rw [on_openPool hd] at hon
      cases hon
  | broken message =>
      have hon := hnot (o := .giveUp) trivial rfl
      rw [on.eq_def, hd] at hon
      cases hon
  | leaving =>
      have hon := hnot (o := .depart) trivial rfl
      rw [on.eq_def, hd] at hon
      cases hon

/-- Where a run without a slot ends up. -/
theorem status_of_starves (h : st.Starves origin) (hr : st.AtRest) :
    st.run.status = .failed ∧ st.run.error = some ("Dispatcher error: " ++ noWorkers) ∧
        ¬ origin.config.timeLimit.IsBeyond ∨
      st.run.status = .running ∧ origin.config.timeLimit.IsBeyond := by
  have hs := h.inVain
  have hopen {status : RunStatus} (ht : status.isTerminal = false) (e : st.run.status = status)
      (hd : st.dispatch ≠ .ended) : False := by
    rcases hr with hr | hr
    · rw [e, ht] at hr
      cases hr
    · exact hd hr
  cases hd : st.dispatch with
  | leaving | ended =>
      rw [hd] at hs
      exact hs
  | idle | called =>
      rw [hd] at hs
      exact (hopen rfl hs (by rw [hd]; nofun)).elim
  | begun =>
      rw [hd] at hs
      exact (hopen rfl hs (by rw [hd]; nofun)).elim
  | broken message =>
      rw [hd] at hs
      exact (hopen rfl hs.1 (by rw [hd]; nofun)).elim
  | active p =>
      rw [hd] at hs
      exact hs.elim

end RunState

namespace Supervisor

variable {s : Supervisor} {id k : String} {st st' : RunState} {m : Move} {h : List Move}
  {o : Occasion} {t : Change} {origin : Run} {script : String → CaseEnd} {j : Json}

theorem steers_starves {settings : Settings} (hslots : settings.slots origin.config < 1) :
    Steers settings script (·.Starves origin) Dispatch.toGiveUp where
  congr := by
    intro st st' hc hr hd
    exact ⟨hr ▸ hc.config, hr ▸ hd ▸ hc.inVain⟩
  step := by
    intro st now o t hon ho _ hc
    obtain ⟨hnext, hless⟩ := RunState.starves_of_on hon hslots ho hc
    refine ⟨hnext, ?_⟩
    split <;> omega
  ended := RunState.ended_of_starves

/-! ## 3. Waiting -/

/-- Nobody has to wait for a run whose dispatch ends in a change. -/
theorem done_of_ended (hg : st.Goes s.now o t) (hc : s.canRetain = true)
    (hst : st.dispatch = .ended → st.done = true) (hd : (s.outcome t).dispatch = .ended) :
    (s.outcome t).done = true := by
  have hdone : t.next.done = true → (s.outcome t).done = true := by
    intro hnext
    unfold outcome
    split
    · exact hnext
    · split
      · show (t.next.done || s.canRetain) = true
        rw [hnext, Bool.true_or]
      · exact hnext
  have hother (hn : t.next.dispatch ≠ .ended) (hb : ∀ fault, t.ifBroken fault ≠ .ended) :
      (s.outcome t).done = true := by
    rcases dispatch_outcome (s := s) (t := t) with e | ⟨fault, -, e⟩
    · exact absurd (e.symm.trans hd) hn
    · exact absurd (e.symm.trans hd) (hb fault)
  cases hg with
  | depart hd' => rw [done_outcome_of_leaves rfl rfl, hc, Bool.or_true]
  | expire hd' ho | cancel ho =>
      exact hdone (hst ((dispatch_outcome_of_eq fun _ => rfl).symm.trans hd))
  | launch | begin | beginLate | openPool | openNone | openNever | fill | handIn | record | drop
  | noSession | complete | stop | giveUp | giveUpLate => exact hother nofun nofun

/-- **Nobody has to wait** for a run whose dispatch has ended, where there can be a queue for eviction. -/
theorem done_after (hc : s.canRetain = true)
    (hinv : ∀ st, s.state? id = some st → st.dispatch = .ended → st.done = true) :
    ∀ st, (s.after h).state? id = some st → st.dispatch = .ended → st.done = true := by
  induction h generalizing s with
  | nil => exact hinv
  | cons m h ih =>
      refine ih ?_ fun st' hst' hd => ?_
      · unfold canRetain
        rw [(frame_perform s m).1]
        exact hc
      · cases became_of_state? hst' with
        | kept _ hst _ => exact hinv st' hst hd
        | registered => cases hd
        | changed st o t _ hst _ hg => exact done_of_ended hg hc (hinv st hst) hd

/-- **A run that is in memory at the end** has been there all along, if there was a snapshot of it. -/
theorem holds_of_saved (hs : s.Sound) (hk : s.Separates id h) (hsaved : s.AllSaved h)
    (hst : s.state? id = some st) (hload : s.archive.store.load id = .ok (some st.run.toJson))
    (hr : ((s.after h).run? id).isSome = true) : s.Holds id h := by
  induction h generalizing s st with
  | nil => exact hr
  | cons m h ih =>
      obtain ⟨hm, hsaved⟩ := hsaved
      obtain ⟨st', hb, hstay⟩ := stay_step hs hst m
      have hload' := load_of_became hs hk hm hst hb hload
      refine ⟨isSome_run? hst, ?_⟩
      rcases hstay with ⟨hst', -⟩ | ⟨hleft, -⟩
      · exact ih (sound_perform hs m) (hk.perform hs) hsaved hst' hload' hr
      · have hnone := run?_eq_none.mpr hleft
        obtain ⟨-, -, hgone⟩ := over_after (sound_perform hs m) (hk.perform hs)
          (fun run hrun => by rw [hnone] at hrun; cases hrun) (Archive.snapshot?_of_load hload')
        rw [after_cons, hgone.elim (·.trans hnone) fun e => e] at hr
        cases hr

/-! ## 4. Healthy runs -/

/-- The settings are those of an environment, and the run has just been made of cases and a configuration
    that was accepted; every save succeeds in a store that can keep the registered runs; from its start on
    nothing happens to the run but what goes on by itself, until nothing does any more. -/
structure Performance.Healthy (p : Performance) (environment : Environment) (a : ConfigArguments)
    (cases : List TestCase) (script : String → CaseEnd) : Prop where
  settings : Settings.ofEnvironment environment = .ok p.settings
  made : ∃ id project config createdAt, RunConfig.create a = .ok config ∧
    Run.make { id, project, testCases := cases, config, counts := { total := 0 }, caseResults := []
               createdAt } none = .ok p.run
  keeps : ∀ r ∈ Move.registered (p.past ++ .register p.run :: p.future), p.archive.store.CanKeep r
  saved : (new p.settings p.archive p.now).AllSaved (p.past ++ .register p.run :: p.future)
  accepted : ((new p.settings p.archive p.now).after p.past).accepts p.run = true
  plays : p.start.Plays script p.run.id p.future
  finished : p.start.Holds p.run.id p.future → (p.start.after p.future).Rests script p.run.id

variable {p : Performance} {environment : Environment} {a : ConfigArguments}
  {cases : List TestCase}

/-- The supervisor that has taken over a healthy run, and the store that has a snapshot of it. -/
theorem Performance.Healthy.start (hp : p.Healthy environment a cases script) :
    p.start.Sound ∧ p.start.state? p.run.id = some { run := p.run } ∧
      p.start.Separates p.run.id p.future ∧ p.start.AllSaved p.future ∧
      p.start.archive.store.load p.run.id = .ok (some p.run.toJson) := by
  have hnew := sound_new p.settings p.archive p.now
  have hpast := sound_after hnew p.past
  obtain ⟨-, hm, hfuture⟩ := allSaved_append.mp hp.saved
  have hk : ((new p.settings p.archive p.now).after p.past).Separates p.run.id
      (.register p.run :: p.future) :=
    Separates.after (separates_new fun r hr => (hp.keeps r hr).separates p.run.id) hnew
  have hrun : p.archive.store.CanKeep p.run := hp.keeps p.run <| by
    rw [registered_append]
    exact List.mem_append_right _ List.mem_cons_self
  exact ⟨sound_perform hpast _, state?_of_accepts hp.accepted, hk.perform hpast, hfuture,
    load_of_accepts (((store_after _ p.past).2 p.run).mpr hrun) hm hp.accepted⟩

/-- **The end of a performance** under any condition that is kept: what memory or store have of the run is
    its last state, and nobody has to wait. -/
theorem Performance.Healthy.ends (hp : p.Healthy environment a cases script) {I : RunState → Prop}
    {toGo : Dispatch → Nat} (hI : Steers p.settings script I toGo) (hc : I { run := p.run }) :
    (∃ st : RunState, p.states.getLast? = some st.run ∧ I st ∧ st.AtRest ∧
      (p.start.after p.future).snapshot? p.run.id = some st.run.toJson) ∧
    (p.start.after p.future).wait p.run.id = .ok true ∧
    p.start.strides p.run.id p.future ≤ toGo .idle := by
  obtain ⟨hs, hst, hk, hsaved, hload⟩ := hp.start
  have hset : p.start.settings = p.settings := (frame_perform _ _).1.trans (settings_after _ _)
  rw [← hset] at hI
  obtain ⟨st, hlast, hst', hrest, hheld⟩ := hI.last hs hst hc hp.plays hp.finished
  obtain ⟨last, hlast', hstored, hmemory⟩ := load_of_registered p.settings p.archive p.now p.past
    p.future p.run hp.keeps hp.saved hp.accepted
  obtain rfl : last = st.run := Option.some.inj (hlast'.symm.trans hlast)
  have hsnap : (p.start.after p.future).archive.snapshot? p.run.id = some st.run.toJson :=
    Archive.snapshot?_of_load hstored
  replace hmemory : (p.start.after p.future).run? p.run.id = some st.run ∨
      (p.start.after p.future).run? p.run.id = none := hmemory.imp_right And.left
  refine ⟨⟨st, hlast, hst', hrest, ?_⟩, ?_, hI.strides_le hs hst hc hp.plays⟩
  · unfold snapshot?
    rcases hmemory with hr | hr
    · rw [hr]
    · rw [hr]
      exact hsnap
  · rcases hmemory with hr | hr
    · have hholds := holds_of_saved hs hk hsaved hst hload (Option.isSome_of_eq_some hr)
      obtain ⟨hstate, hended⟩ := hheld hholds
      have hretain : (new p.settings p.archive p.now).canRetain = true :=
        decide_eq_true (Settings.ofEnvironment_eq_ok hp.settings).2
      have hstate' : ((new p.settings p.archive p.now).after
          (p.past ++ .register p.run :: p.future)).state? p.run.id = some st := by
        rw [after_append]
        exact hstate
      have hdone : st.done = true := by
        refine done_after hretain (fun st h => ?_) st hstate' hended
        rw [state?_new] at h
        cases h
      unfold wait
      rw [hstate]
      exact congrArg _ hdone
    · unfold wait
      rw [run?_eq_none.mp hr, hsnap]
      rfl

/-- A complete run has a result for every case, the one that its end brings. -/
theorem result_of_completed {run : Run} (ha : run.Aggregate) (hf : run.caseResults.Follow script)
    (hs : run.status = .completed) {c : TestCase} (hc : c ∈ run.testCases) :
    ∃ now, run.caseResults.result? c.id = some ((script c.id).result now) := by
  have hkey : c.id ∈ run.caseResults.map (·.1) := by
    rw [ha.keys]
    exact List.mem_map_of_mem hc
  obtain ⟨v, hlookup, hmem⟩ := exists_lookup_of_mem hkey
  have hfull : run.caseResults.tally none = 0 := by
    have hpending := ha.pending
    rw [ha.completed hs] at hpending
    omega
  have hsome := List.countP_eq_zero.mp hfull _ hmem
  cases v with
  | none => exact absurd rfl hsome
  | some r =>
      obtain ⟨now, hr⟩ := hf _ hmem r rfl
      refine ⟨now, ?_⟩
      unfold CaseResults.result?
      rw [hlookup, hr]
      rfl

/-- **Where a healthy run ends.** It is complete exactly if there is a worker at least, and a moment for its
    time limit; then no case is pending, and every case has the result that its end brings. Without a worker
    it fails, and beyond the format it is left running. What is reported of it is what it came to, nobody
    has to wait, and it goes on only so often. -/
theorem healthy_ends (hp : p.Healthy environment a cases script) :
    (∃ run, p.states.getLast? = some run ∧
      (p.start.after p.future).snapshot? p.run.id = some run.toJson ∧
      (run.status = .completed ↔
        1 ≤ p.settings.maxConcurrency ∧ ¬ p.run.config.timeLimit.IsBeyond) ∧
      (run.status = .completed → run.counts.pending = 0 ∧
        ∀ c ∈ cases, ∃ now, run.caseResults.result? c.id = some ((script c.id).result now)) ∧
      (p.settings.maxConcurrency < 1 → ¬ p.run.config.timeLimit.IsBeyond →
        run.status = .failed ∧ run.error = some ("Dispatcher error: " ++ noWorkers)) ∧
      (p.run.config.timeLimit.IsBeyond → run.status = .running)) ∧
    (p.start.after p.future).wait p.run.id = .ok true ∧
    p.start.strides p.run.id p.future ≤ 3 * cases.length + 5 := by
  obtain ⟨id, project, config, createdAt, hconfig, hmade⟩ := hp.made
  obtain ⟨hconforms, rfl⟩ := conforms_of_make script hmade
  have hconcurrency : 1 ≤ p.run.config.concurrency := by
    rw [(Run.make_eq_ok hmade).2]
    exact RunConfig.one_le_concurrency hconfig
  have hslots : p.settings.slots p.run.config =
    min (p.run.config.concurrency : Int) p.settings.maxConcurrency := rfl
  by_cases hworkers : 1 ≤ p.settings.maxConcurrency
  · obtain ⟨⟨st, hlast, hst, hrest, hsnap⟩, hwait, hstrides⟩ :=
      hp.ends (steers_conforms script (by rw [hslots]; omega)) hconforms
    refine ⟨⟨st.run, hlast, hsnap, ?_⟩, hwait, hstrides⟩
    rcases st.status_of_atRest hst hrest with ⟨hs, hl⟩ | ⟨hs, hl⟩
    · exact ⟨⟨fun _ => ⟨hworkers, hl⟩, fun _ => hs⟩,
        fun _ => ⟨hst.aggregate.completed hs, fun c hc =>
          result_of_completed hst.aggregate hst.results hs (hst.cases ▸ hc)⟩,
        fun hw => absurd hw (by omega), fun hb => absurd hb hl⟩
    · exact ⟨by simp [hs, hl], by simp [hs], fun _ h => absurd hl h, fun _ => hs⟩
  · have hinitial : ({ run := p.run } : RunState).Starves p.run := ⟨rfl, hconforms.inStep⟩
    obtain ⟨⟨st, hlast, hst, hrest, hsnap⟩, hwait, hstrides⟩ :=
      hp.ends (steers_starves (by rw [hslots]; omega)) hinitial
    refine ⟨⟨st.run, hlast, hsnap, ?_⟩, hwait, Nat.le_trans hstrides (Nat.le_add_left 5 _)⟩
    rcases st.status_of_starves hst hrest with ⟨hs, he, hl⟩ | ⟨hs, hl⟩
    · exact ⟨by simp [hs, hworkers], by simp [hs], fun _ _ => ⟨hs, he⟩, fun hb => absurd hb hl⟩
    · exact ⟨by simp [hs, hworkers], by simp [hs], fun _ h => absurd hl h, fun _ => hs⟩

end Supervisor

namespace Sample

/-- The variable that keeps one run at rest in memory. -/
def keepingOne : Environment := [("RUNNER_RETAIN_TERMINAL_RUNS", " 1 ")]

/-- The variable that leaves no worker. -/
def idleWorkers : Environment := [("RUNNER_MAX_CONCURRENCY", "0")]

/-- A run of one case that gets no slot. -/
def starved : Supervisor.Performance where
  settings := { maxConcurrency := 0 }
  archive := archive fun _ => none
  now := ⟨0⟩
  past := []
  run := run 1000
  future :=
    [ .occur runId .launch, .occur runId .begin, .occur runId .openPool, .occur runId .giveUp,
      .occur runId .depart ]

end Sample

namespace Supervisor

theorem healthy_inTurn : Sample.inTurn.Healthy Sample.keepingOne
    { concurrency := .int 1, timeLimit := .int 1000 } [Sample.case, Sample.other] Sample.script where
  settings := by decide +kernel
  made := ⟨_, _, _, _, rfl, rfl⟩
  keeps := fun _ _ => trivial
  saved := by decide +kernel
  accepted := by decide +kernel
  plays := by decide +kernel
  finished := fun _ => rests_of_ended (by decide +kernel)

theorem healthy_starved : Sample.starved.Healthy Sample.idleWorkers { timeLimit := .int 1000 }
    [Sample.case] Sample.script where
  settings := by decide +kernel
  made := ⟨_, _, _, _, rfl, rfl⟩
  keeps := fun _ _ => trivial
  saved := by decide +kernel
  accepted := by decide +kernel
  plays := by decide +kernel
  finished := fun _ => rests_of_ended (by decide +kernel)

/-- Two cases end one after the other, one of them because something breaks; the run is complete. -/
theorem healthy_ends_inTurn : ∃ run, Sample.inTurn.states.getLast? = some run ∧
    run.status = .completed ∧ run.counts.pending = 0 ∧
    (Sample.inTurn.start.after Sample.inTurn.future).wait Sample.runId = .ok true := by
  obtain ⟨⟨run, hlast, -, hcompleted, hresults, -⟩, hwait, -⟩ := healthy_ends healthy_inTurn
  have hlimit : ¬ Sample.inTurn.run.config.timeLimit.IsBeyond := by
    unfold TimeLimit.IsBeyond
    decide +kernel
  have hs := hcompleted.mpr ⟨by decide, hlimit⟩
  exact ⟨run, hlast, hs, (hresults hs).1, hwait⟩

/-- A healthy run fails where an environment leaves no worker. -/
theorem failed_of_starved :
    Sample.starved.Healthy Sample.idleWorkers { timeLimit := .int 1000 } [Sample.case]
      Sample.script ∧
    Sample.starved.states.getLast?.map (fun run => (run.status, run.error, run.counts.pending)) =
      some (.failed, some "Dispatcher error: max_workers must be greater than 0", 1) :=
  ⟨healthy_starved, by decide +kernel⟩

end Supervisor

end StepRunner
