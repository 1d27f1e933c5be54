import StepRunner.Proofs.Alike
import StepRunner.Proofs.Supervisor.Snapshots

/-!
# How many runs stay in memory

How many runs at rest a supervisor keeps in memory makes no difference to those who deal with it, as long
as every save succeeds, no run is launched that has ended, and no time limit is beyond the binary64
format.

* `RunState.Rests`: a run has ended and nothing can happen to it any more but a launch;
* `Supervisor.Settled`: what holds of one supervisor then: the store has every run in memory as it is,
  and the runs in the queue for eviction rest (`settled_perform`);
* `Supervisor.Twins`: two supervisors have the same runs in memory, but for some that rest, and alike
  broadcasters. They stay so in every move (`twins_perform`), and answer alike (`snapshot?_of_twins` and
  the rest);
* `retention_unobservable`: both, for every history.
-/

namespace StepRunner

variable {s s' : Supervisor} {id k : String} {st st' : RunState} {run : Run} {m : Move} {t : Change}
  {o : Occasion} {h : List Move}

/-! ## 1. Runs that rest -/

/-- The run has ended, nobody waits for it, and its dispatch is over or was never asked for. -/
structure RunState.Rests (st : RunState) : Prop where
  terminal : st.run.status.isTerminal = true
  done : st.done = true
  dispatch : st.dispatch = .idle ∨ st.dispatch = .ended

namespace Supervisor

/-- Nothing happens to a run that rests, unless it is launched. -/
theorem launch_of_rests {now : Instant} (hr : st.Rests) (h : st.Goes now o t) : o = .launch := by
  obtain ⟨ht, -, hd⟩ := hr
  have hne {d : Dispatch} (hd' : st.dispatch = d) (hi : d ≠ .idle) (he : d ≠ .ended) : False :=
    hd.elim (fun e => hi (hd'.symm.trans e)) fun e => he (hd'.symm.trans e)
  cases h with
  | launch => rfl
  | cancel ho => exact absurd ht (Run.not_isTerminal ho)
  | begin hd' | beginLate hd' | openPool _ _ _ hd' | openNone _ _ _ hd' | openNever _ hd'
  | fill _ hd' | handIn _ _ _ _ hd' | record _ _ _ _ hd' | drop _ _ _ _ _ hd'
  | noSession _ _ _ _ hd' | complete _ hd' | stop _ hd' | giveUp _ hd' | giveUpLate _ hd'
  | depart hd' => exact (hne hd' nofun nofun).elim
  | expire hd' =>
      rcases hd' with ⟨p, hd'⟩ | ⟨message, hd'⟩
      · exact (hne hd' nofun nofun).elim
      · exact (hne hd' nofun nofun).elim

theorem done_outcome_of_leaves (hk : (s.keep t).1 = none) (hl : t.leaves = true) :
    (s.outcome t).done = (t.next.done || s.canRetain) := by
  unfold outcome
  rw [hk]
  simp only [hl, if_true]

/-- **A run that is put to rest** rests, if it is not stranded. -/
theorem rests_of_leaves (h : st.Goes s.now o t) (hf : st.dispatch.Fits st.run)
    (hl : t.leaves = true) (hk : (s.keep t).1 = none) (hc : s.canRetain = true)
    (hu : ¬ (s.outcome t).Stranded) : (s.outcome t).Rests := by
  have hdone : (s.outcome t).done = true := by
    rw [done_outcome_of_leaves hk hl, hc, Bool.or_true]
  have hd := dispatch_outcome_of_no_fault hk
  cases h with
  | depart hd' =>
      refine ⟨?_, hdone, .inr hd⟩
      rcases hf.terminal_or_running (by rw [hd']; rfl) with ht | hrun
      · rw [run_outcome]
        exact ht
      · refine absurd ⟨?_, .inr hd⟩ hu
        rw [run_outcome]
        exact hrun
  | cancel ho =>
      have hl : st.run.status = .pending ∧ st.dispatch = .idle := of_decide_eq_true hl
      refine ⟨?_, hdone, .inl (hd.trans hl.2)⟩
      rw [run_outcome]
      rfl
  | launch | begin | beginLate | openPool | openNone | openNever | fill | handIn | record | drop
  | noSession | complete | stop | giveUp | giveUpLate | expire => cases hl

/-! ## 2. One supervisor -/

/-- A launch is one of a run that has not ended. -/
def launchesOpen (s : Supervisor) : Move → Bool
  | .occur id .launch => (s.run? id).all (·.isOpen)
  | _ => true

/-- No run is launched in a history that has ended. -/
def LaunchesOpen (s : Supervisor) : List Move → Prop
  | [] => True
  | m :: h => s.launchesOpen m = true ∧ (s.perform m).LaunchesOpen h

instance decidableLaunchesOpen (s : Supervisor) : (h : List Move) → Decidable (s.LaunchesOpen h)
  | [] => isTrue trivial
  | m :: h => @instDecidableAnd _ _ _ (decidableLaunchesOpen (s.perform m) h)

/-- What holds of a supervisor where every save succeeds, no run is launched that has ended, and no time
    limit is beyond the format. -/
structure Settled (s : Supervisor) : Prop where
  sound : s.Sound
  canRetain : s.canRetain = true
  stored : ∀ k st, s.state? k = some st → s.archive.store.load k = .ok (some st.run.toJson)
  keeps : ∀ k st, s.state? k = some st → s.archive.store.CanKeep st.run
  limits : ∀ k st, s.state? k = some st → ¬ st.run.config.timeLimit.IsBeyond
  unstranded : ∀ k st, s.state? k = some st → ¬ st.Stranded
  resting : ∀ k ∈ s.retired, ∀ st, s.state? k = some st → st.Rests

theorem settled_new {settings : Settings} {archive : Archive} {now : Instant}
    (hr : 0 ≤ settings.retainedRuns) : (new settings archive now).Settled := by
  have hnone (k : String) (st : RunState) : (new settings archive now).state? k ≠ some st := by
    rw [state?_new]
    exact nofun
  exact ⟨sound_new settings archive now, decide_eq_true hr, fun k st h => (hnone k st h).elim,
    fun k st h => (hnone k st h).elim, fun k st h => (hnone k st h).elim,
    fun k st h => (hnone k st h).elim, fun k _ st h => (hnone k st h).elim⟩

/-- The store has a snapshot of every run in memory. -/
theorem Settled.snapshot?_archive (hset : s.Settled) (hst : s.state? id = some st) :
    s.archive.snapshot? id = some st.run.toJson :=
  Archive.snapshot?_of_load (hset.stored id st hst)

/-- Nothing happens to a run that rests in such a history. -/
theorem change?_of_rests (hst : s.state? id = some st) (hr : st.Rests)
    (hl : s.launchesOpen (.occur id o) = true) : s.change? id o = none := by
  cases hc : s.change? id o with
  | none => rfl
  | some t =>
      obtain ⟨st', hst', hg⟩ := change?_eq_some hc
      rw [hst] at hst'
      cases hst'
      obtain rfl := launch_of_rests hr hg
      rw [launchesOpen, run?_of_state? hst] at hl
      exact absurd hr.terminal (Run.not_isTerminal hl)

/-- What joins the queue for eviction was put to rest. -/
theorem mem_retired_perform (hs : s.Sound) (hk : k ∈ (s.perform m).retired) :
    k ∈ s.retired ∨ ∃ o t, m = .occur k o ∧ s.change? k o = some t ∧ t.leaves = true := by
  by_cases hp : s.Parts m
  · obtain ⟨id, o, t, rfl, hc, -, hl⟩ := hp
    rw [perform_of_some hc] at hk
    obtain ⟨hin, -⟩ := (retired_take hs.nodup (isSome_of_change? hc)).2 k hk
    rw [id_of_change? hc] at hin
    refine hin.imp_right fun ⟨_, e⟩ => ?_
    subst e
    exact ⟨o, t, rfl, hc, hl⟩
  · rw [(queue_of_not_parts hp).1] at hk
    exact .inl hk

/-- The store has every run in memory as it is. -/
theorem Settled.mirrored (hset : s.Settled) : s.Mirrored := ⟨hset.sound, hset.stored, hset.keeps⟩

/-- No run is stranded, also as it leaves memory. -/
theorem unstranded_of_became (hset : s.Settled) (hm : s.Saves m) (hst : s.state? k = some st)
    (hb : s.Became m k st') : ¬ st'.Stranded := by
  intro hstr
  have hlim := isBeyond_of_became hset.sound (not_breaks_of_saves hm)
    (fun st hst hstr => absurd hstr (hset.unstranded k st hst)) hb hstr
  obtain ⟨news, hturn⟩ := turns_of_became hset.sound hst hb
  rw [hturn.config_eq] at hlim
  exact hset.limits k st hst hlim

/-- **A supervisor stays settled.** -/
theorem settled_perform (hset : s.Settled) (hm : s.Saves m) (hl : s.launchesOpen m = true)
    (hk : ∀ run, m = .register run → s.archive.store.CanKeep run)
    (hlim : ∀ run, m = .register run → ¬ run.config.timeLimit.IsBeyond) :
    (s.perform m).Settled := by
  have hs := hset.sound
  have hb := not_breaks_of_saves hm
  have hmirrored := hset.mirrored.perform hk hm
  have hlimits : ∀ k st, (s.perform m).state? k = some st → ¬ st.run.config.timeLimit.IsBeyond := by
    intro k st' hst'
    rcases origin_of_state? hs hst' with ⟨e, -⟩ | ⟨st, hst, -, -, hconfig⟩
    · exact hlim st'.run e
    · rw [hconfig]
      exact hset.limits k st hst
  have hunstranded : ∀ k st, (s.perform m).state? k = some st → ¬ st.Stranded := by
    intro k st' hst'
    rcases origin_of_state? hs hst' with ⟨-, hp⟩ | ⟨st, hst, hb, -⟩
    · rintro ⟨hrun, -⟩
      rw [hp] at hrun
      cases hrun
    · exact unstranded_of_became hset hm hst hb
  refine ⟨hmirrored.sound, ?_, hmirrored.stored, hmirrored.keeps, hlimits, hunstranded,
    fun k hk' st' hst' => ?_⟩
  · unfold canRetain
    rw [(frame_perform s m).1]
    exact hset.canRetain
  · have hu := hunstranded k st' hst'
    rcases mem_retired_perform hs hk' with hin | ⟨o, t, rfl, hc, hleaves⟩
    · obtain ⟨st, hst, -⟩ := hs.retired k hin
      have hrest := hset.resting k hin st hst
      cases became_of_state? hst' with
      | kept _ hst₀ _ =>
          rw [hst] at hst₀
          cases hst₀
          exact hrest
      | registered run _ _ _ hn =>
          rw [hst] at hn
          cases hn
      | changed st₀ o t e _ hc _ =>
          subst e
          rw [change?_of_rests hst hrest hl] at hc
          cases hc
    · cases became_of_state? hst' with
      | kept _ _ hn =>
          rw [hn o rfl] at hc
          cases hc
      | registered run e _ _ _ => cases e
      | changed st₀ o' t' e hst hc' hg =>
          cases e
          rw [hc] at hc'
          cases hc'
          exact rests_of_leaves hg (hs.fits k st₀ hst) hleaves (keep_of_not_breaks hc hb)
            hset.canRetain hu

/-! ## 3. Two supervisors -/

end Supervisor

/-- The states of a run with two supervisors: they are the same, or the run rests and one of the two has
    it in memory no longer. -/
inductive RunState.Paired : Option RunState → Option RunState → Prop where
  | same (x : Option RunState) : Paired x x
  | left (st : RunState) (h : st.Rests) : Paired (some st) none
  | right (st : RunState) (h : st.Rests) : Paired none (some st)

namespace RunState

variable {x y : Option RunState}

theorem Paired.symm (h : Paired x y) : Paired y x := by
  cases h with
  | same => exact .same x
  | left st h => exact .right st h
  | right st h => exact .left st h

/-- A run that rests may leave memory on one side. -/
theorem Paired.drop (h : Paired x y) (hx : ∀ st, x = some st → st.Rests) : Paired none y := by
  cases h with
  | same =>
      cases x with
      | none => exact .same none
      | some st => exact .right st (hx st rfl)
  | left => exact .same none
  | right st h => exact .right st h

end RunState

namespace Supervisor

/-- Two supervisors have the same archive and time, alike broadcasters, and the same runs in memory, but
    for some that rest. -/
structure Twins (s s' : Supervisor) : Prop where
  now : s'.now = s.now
  archive : s'.archive = s.archive
  slots : s'.settings.maxConcurrency = s.settings.maxConcurrency
  broadcaster : s.broadcaster.Alike s'.broadcaster
  states : ∀ k, RunState.Paired (s.state? k) (s'.state? k)

theorem Twins.symm (h : s.Twins s') : s'.Twins s :=
  ⟨h.now.symm, h.archive.symm, h.slots.symm, h.broadcaster.symm, fun k => (h.states k).symm⟩

theorem slots_congr {settings settings' : Settings} {config : RunConfig}
    (h : settings'.maxConcurrency = settings.maxConcurrency) :
    settings'.slots config = settings.slots config := by
  unfold Settings.slots
  rw [h]

theorem opens_congr {settings settings' : Settings} {now : Instant}
    (h : settings'.maxConcurrency = settings.maxConcurrency) :
    st.opens settings' now = st.opens settings now := by
  unfold RunState.opens
  rw [slots_congr h]

/-- The change of a run depends on the settings by the number of slots alone. -/
theorem on_congr {settings settings' : Settings} {now : Instant}
    (h : settings'.maxConcurrency = settings.maxConcurrency) :
    st.on settings' now o = st.on settings now o := by
  unfold RunState.on
  rw [opens_congr h]

/-! ## 4. Answers -/

/-- What one supervisor has in memory, the other has in memory or in its store. -/
theorem snapshot?_of_twins (h : s.Twins s') (hset : s.Settled) (hset' : s'.Settled) :
    s'.snapshot? id = s.snapshot? id := by
  have hstates := h.states id
  unfold snapshot? run?
  rw [h.archive]
  generalize hx : s.state? id = x at hstates ⊢
  generalize hy : s'.state? id = y at hstates ⊢
  cases hstates with
  | same => rfl
  | left st => exact hset.snapshot?_archive hx
  | right st => exact (h.archive ▸ hset'.snapshot?_archive hy).symm

theorem accepts_of_twins (h : s.Twins s') (hset : s.Settled) (hset' : s'.Settled) :
    s'.accepts run = s.accepts run := by
  rw [accepts, accepts, knows_eq, knows_eq, snapshot?_of_twins h hset hset']

/-- Whether a run is taken over is up to what is known of its id, and to its save. -/
theorem register_fst (s : Supervisor) (run : Run) : (s.register run).1 =
    if run.status ≠ .pending then .error (.notPending run.id run.status)
    else if s.knows run.id then .error (.alreadyRegistered run.id)
    else match (s.persist run).1 with
      | some fault => .error (.save fault)
      | none => .ok () := by
  have hp := persist_fst s { s with runs := s.runs ++ [{ run }] } rfl run
  unfold register
  split
  · rfl
  · split
    · rfl
    · rw [← hp]
      split
      · next e => rw [e]
      · next e => rw [e]

theorem register_of_twins (h : s.Twins s') (hset : s.Settled) (hset' : s'.Settled) :
    (s'.register run).1 = (s.register run).1 := by
  rw [register_fst, register_fst, knows_eq, knows_eq, snapshot?_of_twins h hset hset',
    persist_fst s s' h.archive]

/-- Nobody waits for a run that rests, in memory or not. -/
theorem wait_of_twins (h : s.Twins s') (hset : s.Settled) (hset' : s'.Settled) :
    s'.wait id = s.wait id := by
  have hstates := h.states id
  unfold wait
  rw [h.archive]
  generalize hx : s.state? id = x at hstates ⊢
  generalize hy : s'.state? id = y at hstates ⊢
  cases hstates with
  | same => rfl
  | left st hr =>
      simp only [hset.snapshot?_archive hx, hr.done]
      rfl
  | right st hr =>
      simp only [(h.archive ▸ hset'.snapshot?_archive hy : s.archive.snapshot? id = _), hr.done]
      rfl

/-- The same happens to a run with both. -/
theorem change?_of_twins (h : s.Twins s') (hl : s.launchesOpen (.occur id o) = true)
    (hl' : s'.launchesOpen (.occur id o) = true) : s'.change? id o = s.change? id o := by
  have hstates := h.states id
  generalize hx : s.state? id = x at hstates
  generalize hy : s'.state? id = y at hstates
  cases hstates with
  | same =>
      unfold change?
      rw [hx, hy, h.now]
      exact congrArg (Option.bind x) (funext fun st => on_congr h.slots)
  | left st hr =>
      rw [change?_of_rests hx hr hl]
      unfold change?
      rw [hy]
      rfl
  | right st hr =>
      rw [change?_of_rests hy hr hl']
      unfold change?
      rw [hx]
      rfl

/-- A request to cancel is answered by what there is to cancel, and by its save. -/
theorem revoke_fst (s : Supervisor) (id : String) : (s.revoke id).1 =
    match s.change? id .cancel with
    | none => .ok false
    | some t => match (s.keep t).1 with
      | some fault => .error (.save fault)
      | none => if t.leaves && !s.canRetain then .error .noRetention else .ok true := by
  unfold revoke
  cases hc : s.change? id .cancel with
  | none => rfl
  | some t =>
      dsimp only
      cases hk : (s.keep t).1 with
      | some fault =>
          obtain ⟨archive, journal, e⟩ := take_of_fault hk
          rw [e]
      | none =>
          obtain ⟨archive, journal, e⟩ := take_of_no_fault hk
          have hset := (frame_take s t).1
          rw [e] at hset ⊢
          dsimp only at hset ⊢
          unfold canRetain
          rw [hset]

theorem revoke_of_twins (h : s.Twins s') (hset : s.Settled) (hset' : s'.Settled) :
    (s'.revoke id).1 = (s.revoke id).1 := by
  rw [revoke_fst, revoke_fst, change?_of_twins h rfl rfl, hset.canRetain, hset'.canRetain]
  cases s.change? id .cancel with
  | none => rfl
  | some t =>
      dsimp only
      rw [keep_fst s s' h.archive]

/-- The stored snapshot of a run tells how far it is. -/
theorem storedProgress_toJson (run : Run) :
    storedProgress run.toJson = .ok (Event.progressOf run).happening := by
  rfl

/-- Opening a stream on a run that is not in memory. -/
theorem subscribe_of_none (hst : s.state? id = none) : s.subscribe id =
    match s.archive.snapshot? id with
    | none => (.error (.unknownRun id), s)
    | some snapshot => match storedProgress snapshot with
      | .error fault => (.error (.noProgress fault), s)
      | .ok x => (.ok s.broadcaster.subscriptions.length,
          { s with broadcaster := (s.broadcaster.addClosed id [⟨id, x⟩]).2 }) := by
  unfold subscribe
  rw [run?_eq_none.mpr hst]
  rfl

/-- A stream on a run that rests is the same, whether the run is in memory or not. -/
theorem subscribe_of_rests (h : s.Twins s') (hset : s.Settled) (hst : s.state? id = some st)
    (hr : st.Rests) (hst' : s'.state? id = none) : (s'.subscribe id).1 = (s.subscribe id).1 ∧
      (s.subscribe id).2.broadcaster.Alike (s'.subscribe id).2.broadcaster := by
  have hj : s'.archive.snapshot? id = some st.run.toJson := by
    rw [h.archive]
    exact hset.snapshot?_archive hst
  have hid := id_of_state? hst
  have hclosed : st.run.isOpen = false := Run.not_isOpen_iff.mpr hr.terminal
  obtain ⟨hn, hb⟩ := broadcaster_subscribe hst
  rw [subscribe_of_none hst', hj, hn, hb, hclosed]
  dsimp only
  rw [storedProgress_toJson]
  dsimp only
  refine ⟨congrArg Except.ok h.broadcaster.length, ?_⟩
  have he : (⟨id, (Event.progressOf st.run).happening⟩ : Event) = Event.progressOf st.run := by
    rw [← hid]
    rfl
  rw [if_neg Bool.false_ne_true, he]
  exact h.broadcaster.subscribe_close hset.sound.broadcaster

/-- **Opening a stream** gives the same number and leaves the broadcasters alike. -/
theorem subscribe_of_twins (h : s.Twins s') (hset : s.Settled) (hset' : s'.Settled) :
    (s'.subscribe id).1 = (s.subscribe id).1 ∧
      (s.subscribe id).2.broadcaster.Alike (s'.subscribe id).2.broadcaster := by
  have hstates := h.states id
  generalize hx : s.state? id = x at hstates
  generalize hy : s'.state? id = y at hstates
  cases hstates with
  | left st hr => exact subscribe_of_rests h hset hx hr hy
  | right st hr =>
      obtain ⟨hn, hb⟩ := subscribe_of_rests h.symm hset' hy hr hx
      exact ⟨hn.symm, hb.symm⟩
  | same =>
      cases x with
      | none =>
          rw [subscribe_of_none hx, subscribe_of_none hy, h.archive]
          cases s.archive.snapshot? id with
          | none => exact ⟨rfl, h.broadcaster⟩
          | some snapshot =>
              dsimp only
              cases storedProgress snapshot with
              | error fault => exact ⟨rfl, h.broadcaster⟩
              | ok x => exact ⟨congrArg Except.ok h.broadcaster.length, h.broadcaster.addClosed⟩
      | some st =>
          obtain ⟨hn, hb⟩ := broadcaster_subscribe hx
          obtain ⟨hn', hb'⟩ := broadcaster_subscribe hy
          rw [hn, hn', hb, hb', h.broadcaster.length]
          refine ⟨rfl, ?_⟩
          split
          · exact h.broadcaster.subscribe
          · exact h.broadcaster.subscribe.close hset.sound.broadcaster.subscribe
              hset'.sound.broadcaster.subscribe

theorem reads_of_twins (h : s.Twins s') (n : Nat) : s'.reads n m = s.reads n m := by
  cases m with
  | read k =>
      show (if k = n then _ else _) = (if k = n then _ else _)
      rw [(h.broadcaster.get (n := n)).1]
  | register | occur | subscribe | unsubscribe | clock => rfl

/-! ## 5. Moves -/

/-- The same runs are handed over. -/
theorem handsOver_of_twins (h : s.Twins s') (hset : s.Settled) (hset' : s'.Settled)
    (hl : s.launchesOpen m = true) (hl' : s'.launchesOpen m = true) :
    s'.handsOver m = s.handsOver m := by
  cases m with
  | register run =>
      show (if s'.accepts run then some run else none) = if s.accepts run then some run else none
      rw [accepts_of_twins h hset hset']
  | occur id o =>
      show (s'.change? id o).bind _ = (s.change? id o).bind _
      rw [change?_of_twins h hl hl']
  | subscribe | unsubscribe | read | clock => rfl

theorem archive_of_twins (h : s.Twins s') (hset : s.Settled) (hset' : s'.Settled)
    (hl : s.launchesOpen m = true) (hl' : s'.launchesOpen m = true) :
    (s'.perform m).archive = (s.perform m).archive := by
  rw [archive_perform, archive_perform, handsOver_of_twins h hset hset' hl hl', h.archive]

theorem saves_of_twins (h : s.Twins s') (hset : s.Settled) (hset' : s'.Settled)
    (hl : s.launchesOpen m = true) (hl' : s'.launchesOpen m = true) (hm : s.Saves m) :
    s'.Saves m := by
  unfold Saves
  rw [handsOver_of_twins h hset hset' hl hl', h.archive]
  exact hm

/-- A run that is registered comes into memory with both. -/
theorem states_register (h : s.Twins s') (hset : s.Settled) (hset' : s'.Settled) :
    RunState.Paired ((s.perform (.register run)).state? k) ((s'.perform (.register run)).state? k) := by
  show RunState.Paired ((s.register run).2.state? k) ((s'.register run).2.state? k)
  have ha' : s'.accepts run = s.accepts run := accepts_of_twins h hset hset'
  cases ha : s.accepts run with
  | false =>
      rw [register_of_not_accepts ha, register_of_not_accepts (ha'.trans ha)]
      exact h.states k
  | true =>
      have hn := (not_knows_of_accepts ha).2
      have hn' := (not_knows_of_accepts (ha'.trans ha)).2
      obtain ⟨archive, journal, e⟩ := register_of_accepts ha
      obtain ⟨archive', journal', e'⟩ := register_of_accepts (ha'.trans ha)
      rw [e, e']
      show RunState.Paired (state? { s with runs := s.runs ++ [{ run }] } k)
        (state? { s' with runs := s'.runs ++ [{ run }] } k)
      rw [state?_append, state?_append]
      by_cases hk : run.id = k
      · subst hk
        rw [hn, hn']
        exact .same _
      · rw [if_neg hk, Option.or_none, Option.or_none]
        exact h.states k

/-- The runs that leave memory with a change rest. -/
theorem rests_of_departing (hset : s.Settled) (hm : s.Saves (.occur id o))
    (hc : s.change? id o = some t) (hl : t.leaves = true) (hd : k ∈ s.departing id)
    (hst : (if k = id then some (s.outcome t) else s.state? k) = some st) : st.Rests := by
  obtain ⟨st₀, hst₀, hg⟩ := change?_eq_some hc
  split at hst
  · cases hst
    exact rests_of_leaves hg (hset.sound.fits id st₀ hst₀) hl
      (keep_of_not_breaks hc (not_breaks_of_saves hm)) hset.canRetain
      (unstranded_of_became hset hm hst₀ (.changed st₀ o t rfl hst₀ hc hg))
  · next hkid => exact hset.resting k ((mem_departing hd).resolve_right hkid) st hst

/-- A run that changes comes out the same with both, and which other runs leave memory is up to each. -/
theorem states_occur (h : s.Twins s') (hset : s.Settled) (hset' : s'.Settled)
    (hl : s.launchesOpen (.occur id o) = true) (hl' : s'.launchesOpen (.occur id o) = true)
    (hm : s.Saves (.occur id o)) :
    RunState.Paired ((s.perform (.occur id o)).state? k) ((s'.perform (.occur id o)).state? k) := by
  have hm' := saves_of_twins h hset hset' hl hl' hm
  have hc' := change?_of_twins h hl hl'
  cases hc : s.change? id o with
  | none =>
      rw [perform_of_none hc, perform_of_none (hc'.trans hc)]
      exact h.states k
  | some t =>
      rw [hc] at hc'
      have hout : s'.outcome t = s.outcome t := by
        unfold outcome
        rw [keep_fst s s' h.archive, hset.canRetain, hset'.canRetain]
      -- where nothing leaves memory, the states are paired
      have hpair : RunState.Paired (if k = id then some (s.outcome t) else s.state? k)
          (if k = id then some (s'.outcome t) else s'.state? k) := by
        rw [hout]
        split
        · exact .same _
        · exact h.states k
      rw [perform_of_some hc, perform_of_some hc', state?_take_of_change? hc,
        state?_take_of_change? hc']
      by_cases hd : (s.keep t).1 = none ∧ t.leaves ∧ k ∈ s.departing id
      · have hpair := hpair.drop fun st => rests_of_departing hset hm hc hd.2.1 hd.2.2
        rw [if_pos hd]
        split
        · exact .same none
        · exact hpair
      · rw [if_neg hd]
        by_cases hd' : (s'.keep t).1 = none ∧ t.leaves ∧ k ∈ s'.departing id
        · rw [if_pos hd']
          exact (hpair.symm.drop fun st => rests_of_departing hset' hm' hc' hd'.2.1 hd'.2.2).symm
        · rw [if_neg hd']
          exact hpair

theorem broadcaster_of_twins (h : s.Twins s') (hset : s.Settled) (hset' : s'.Settled)
    (hl : s.launchesOpen m = true) (hl' : s'.launchesOpen m = true) :
    (s.perform m).broadcaster.Alike (s'.perform m).broadcaster := by
  cases m with
  | register run =>
      rw [broadcaster_register, broadcaster_register]
      exact h.broadcaster
  | occur id o =>
      have hc' := change?_of_twins h hl hl'
      cases hc : s.change? id o with
      | none =>
          rw [perform_of_none hc, perform_of_none (hc'.trans hc)]
          exact h.broadcaster
      | some t =>
          rw [broadcaster_of_changed hc, broadcaster_of_changed (hc'.trans hc),
            keep_fst s s' h.archive]
          split
          · exact h.broadcaster.publishAll hset.sound.broadcaster hset'.sound.broadcaster t.news
          · exact h.broadcaster
  | subscribe id => exact (subscribe_of_twins h hset hset').2
  | unsubscribe n => exact h.broadcaster.close hset.sound.broadcaster hset'.sound.broadcaster
  | read n => exact h.broadcaster.get.2
  | clock now => exact h.broadcaster

/-- **Twins stay twins.** -/
theorem twins_perform (h : s.Twins s') (hset : s.Settled) (hset' : s'.Settled)
    (hl : s.launchesOpen m = true) (hl' : s'.launchesOpen m = true) (hm : s.Saves m) :
    (s.perform m).Twins (s'.perform m) := by
  refine ⟨?_, archive_of_twins h hset hset' hl hl', ?_, broadcaster_of_twins h hset hset' hl hl',
    fun k => ?_⟩
  · rw [(frame_perform s m).2, (frame_perform s' m).2, h.now]
  · rw [(frame_perform s m).1, (frame_perform s' m).1]
    exact h.slots
  · cases m with
    | register run => exact states_register h hset hset'
    | occur id o => exact states_occur h hset hset' hl hl' hm
    | subscribe id =>
        obtain ⟨b, e, -⟩ := subscribe_frame s id
        obtain ⟨b', e', -⟩ := subscribe_frame s' id
        show RunState.Paired ((s.subscribe id).2.state? k) ((s'.subscribe id).2.state? k)
        rw [e, e']
        exact h.states k
    | unsubscribe | read | clock => exact h.states k

/-! ## 6. Histories -/

/-- **Twins stay twins** through a history, and their subscribers read the same. -/
theorem twins_after (h₀ : s.Twins s') (hset : s.Settled) (hset' : s'.Settled)
    (hk : ∀ run ∈ Move.registered h, s.archive.store.CanKeep run)
    (hlim : ∀ run ∈ Move.registered h, ¬ run.config.timeLimit.IsBeyond)
    (hl : s.LaunchesOpen h) (hl' : s'.LaunchesOpen h) (hsaved : s.AllSaved h) :
    (s.after h).Twins (s'.after h) ∧ (s.after h).Settled ∧ (s'.after h).Settled ∧
      ∀ n, s'.yielded n h = s.yielded n h := by
  induction h generalizing s s' with
  | nil => exact ⟨h₀, hset, hset', fun _ => rfl⟩
  | cons m h ih =>
      obtain ⟨hm, hsaved⟩ := hsaved
      have hm' := saves_of_twins h₀ hset hset' hl.1 hl'.1 hm
      have hfirst (run : Run) (e : m = .register run) : run ∈ Move.registered (m :: h) :=
        mem_registered_cons.mpr (.inl e)
      have hrest (run : Run) (hr : run ∈ Move.registered h) : run ∈ Move.registered (m :: h) :=
        mem_registered_cons.mpr (.inr hr)
      have hset₁ := settled_perform hset hm hl.1 (fun run e => hk run (hfirst run e))
        fun run e => hlim run (hfirst run e)
      have hset₁' := settled_perform hset' hm' hl'.1
        (fun run e => h₀.archive ▸ hk run (hfirst run e)) fun run e => hlim run (hfirst run e)
      obtain ⟨htwins, hend, hend', hyield⟩ := ih (twins_perform h₀ hset hset' hl.1 hl'.1 hm) hset₁
        hset₁' (fun run hr => ((store_perform s m).2.1 run).mpr (hk run (hrest run hr)))
        (fun run hr => hlim run (hrest run hr)) hl.2 hl'.2 hsaved
      refine ⟨htwins, hend, hend', fun n => ?_⟩
      show s'.reads n m ++ _ = s.reads n m ++ _
      rw [reads_of_twins h₀ n, hyield]

/-- **How many runs stay in memory cannot be observed**: two supervisors that differ in this alone answer
    alike after every history, and their subscribers read the same, as long as every save succeeds, no
    run is launched that has ended, and no time limit is beyond the format. -/
theorem retention_unobservable (settings : Settings) (archive : Archive) (now : Instant)
    (r r' : Int) (hr : 0 ≤ r) (hr' : 0 ≤ r') (h : List Move)
    (hk : ∀ run ∈ Move.registered h, archive.store.CanKeep run)
    (hlim : ∀ run ∈ Move.registered h, ¬ run.config.timeLimit.IsBeyond)
    (hsaved : (new { settings with retainedRuns := r } archive now).AllSaved h)
    (hl : (new { settings with retainedRuns := r } archive now).LaunchesOpen h)
    (hl' : (new { settings with retainedRuns := r' } archive now).LaunchesOpen h) :
    let s := (new { settings with retainedRuns := r } archive now).after h
    let s' := (new { settings with retainedRuns := r' } archive now).after h
    (∀ id, s'.snapshot? id = s.snapshot? id ∧ (s'.revoke id).1 = (s.revoke id).1 ∧
      s'.wait id = s.wait id ∧ (s'.subscribe id).1 = (s.subscribe id).1) ∧
    (∀ run, (s'.register run).1 = (s.register run).1) ∧
    ∀ n, (new { settings with retainedRuns := r' } archive now).yielded n h =
      (new { settings with retainedRuns := r } archive now).yielded n h := by
  have htwins : (new { settings with retainedRuns := r } archive now).Twins
      (new { settings with retainedRuns := r' } archive now) :=
    ⟨rfl, rfl, rfl, .refl _, fun _ => .same _⟩
  obtain ⟨htwins, hset, hset', hyield⟩ := twins_after htwins (settled_new hr) (settled_new hr') hk
    hlim hl hl' hsaved
  exact ⟨fun id => ⟨snapshot?_of_twins htwins hset hset', revoke_of_twins htwins hset hset',
    wait_of_twins htwins hset hset', (subscribe_of_twins htwins hset hset').1⟩,
    fun run => register_of_twins htwins hset hset', hyield⟩

/-- A run whose case passes, in memory with one supervisor and not with the other. -/
theorem retention_unobservable_passing :
    let s (r : Int) := Sample.supervisor r fun _ => none
    let h := Sample.passing 1000 ++ [.subscribe Sample.runId, .read 0]
    (s 1).AllSaved h ∧ (s 1).LaunchesOpen h ∧ (s 0).LaunchesOpen h ∧
      (((s 1).after h).run? Sample.runId).isSome = true ∧
      (((s 0).after h).run? Sample.runId).isNone = true ∧
      ((s 0).after h).snapshot? Sample.runId = ((s 1).after h).snapshot? Sample.runId ∧
      (s 0).yielded 0 h = (s 1).yielded 0 h ∧ ((s 1).yielded 0 h).length = 1 := by
  intro s h
  have hsaved : (s 1).AllSaved h := by decide +kernel
  have hl : (s 1).LaunchesOpen h := by decide +kernel
  have hl' : (s 0).LaunchesOpen h := by decide +kernel
  have hlim : ∀ run ∈ Move.registered h, ¬ run.config.timeLimit.IsBeyond := by
    intro run hr
    obtain rfl : run = Sample.run 1000 := by simpa [h, Sample.passing, Move.registered] using hr
    unfold TimeLimit.IsBeyond
    decide +kernel
  obtain ⟨hsnap, -, hyield⟩ := retention_unobservable {} (Sample.archive fun _ => none) ⟨0⟩ 1 0
    (by decide) (by decide) h (fun _ _ => trivial) hlim hsaved hl hl'
  exact ⟨hsaved, hl, hl', by decide +kernel, by decide +kernel, (hsnap Sample.runId).1, hyield 0,
    by decide +kernel⟩

/-- A run with a time limit beyond the format can be cancelled only where it is still in memory. -/
theorem retention_observed_beyond :
    let s (r : Int) := (Sample.supervisor r fun _ => none).after Sample.lost
    ((s 1).revoke Sample.runId).1.toOption = some true ∧
      ((s 0).revoke Sample.runId).1.toOption = some false := by
  decide +kernel

end Supervisor

end StepRunner
