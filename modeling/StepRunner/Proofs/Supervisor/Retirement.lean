import Mathlib.Data.List.Nodup
import StepRunner.Proofs.Supervisor.Retention

/-!
# The queue for eviction

The runs at rest in memory are those for which nobody has to wait, in the order in which they came to
rest; the oldest beyond the limit leave memory, in that order, and no other run does. So it is for every
limit, every history and every store, as long as no save breaks.

* `RunState.Retired`: what is known of a run at rest: it has ended, unless it is running under a time
  limit beyond the binary64 format, and its dispatch is over, unless it was cancelled before its dispatch
  was asked for;
* `Supervisor.WellQueued`: what the queue, memory and the runs that left it have to do with each other. Every
  move whose save does not break keeps it (`wellQueued_perform`);
* `evicted_append_retired`, `tally_perform`: those that left and those in the queue are the runs that came
  to rest, in that order; and every run that was taken over is in memory, or left it;
* `retained_in_order`: all that, for every history.
-/

namespace StepRunner

variable {s : Supervisor} {id k : String} {st st' : RunState} {run : Run} {m : Move} {t : Change}
  {o : Occasion} {h : List Move}

/-! ## 1. Runs at rest -/

/-- The dispatch is under way. -/
def Dispatch.isBusy : Dispatch → Bool
  | .begun | .active _ | .broken _ => true
  | _ => false

namespace RunState

/-- How a run at rest stands. -/
inductive Retired (st : RunState) : Prop where
  /-- It has ended, and so has its dispatch. -/
  | ended (ht : st.run.status.isTerminal = true) (hd : st.dispatch = .ended)
  /-- It was cancelled, and its dispatch was never asked for. -/
  | cancelled (hs : st.run.status = .cancelled) (hd : st.dispatch = .idle)
  /-- It was cancelled, and its dispatch was asked for afterwards. -/
  | recalled (hs : st.run.status = .cancelled) (hd : st.dispatch = .called ∨ st.dispatch = .leaving)
  /-- Its dispatch has ended, since there is no moment for its time limit, and it has not. -/
  | lost (hs : st.run.status = .running) (hl : st.run.config.timeLimit.IsBeyond)
      (hd : st.dispatch = .ended)

/-- A run whose dispatch is under way is not at rest. -/
theorem Retired.not_isBusy (hr : st.Retired) : st.dispatch.isBusy = false := by
  cases hr with
  | ended _ hd | cancelled _ hd | lost _ _ hd => rw [hd]; rfl
  | recalled _ hd => rcases hd with hd | hd <;> rw [hd] <;> rfl

/-- Nobody has to wait for the run if its dispatch has ended, and only if it is at rest. -/
structure DoneAtRest (st : RunState) : Prop where
  ended : st.dispatch = .ended → st.done = true
  retired : st.done = true → st.Retired

theorem DoneAtRest.of_isBusy (h : st.DoneAtRest) (hb : st.dispatch.isBusy = true) : st.done = false := by
  cases hd : st.done with
  | false => rfl
  | true =>
      rw [(h.retired hd).not_isBusy] at hb
      cases hb

/-- The run comes to rest: its dispatch is over, for the first time, or it is cancelled before its
    dispatch was asked for. -/
def restsOn (st : RunState) : Occasion → Bool
  | .depart => st.dispatch = .leaving && !st.done
  | .cancel => st.run.status = .pending && st.dispatch = .idle
  | _ => false

/-- A change puts a run to rest for the first time exactly if the run comes to rest. -/
theorem restsOn_iff (h : st.Goes s.now o t) (ht : st.DoneAtRest) :
    st.restsOn o = true ↔ t.leaves = true ∧ st.done = false := by
  cases h with
  | depart hd => simp [restsOn, hd]
  | cancel ho =>
      show (decide (st.run.status = .pending) && decide (st.dispatch = .idle)) = true ↔
        decide (st.run.status = .pending ∧ st.dispatch = .idle) = true ∧ st.done = false
      rw [Bool.decide_and, and_iff_left_of_imp]
      intro hp
      obtain ⟨hp, -⟩ := (Bool.and_eq_true _ _).mp hp
      have hp := of_decide_eq_true hp
      -- a pending run is not at rest
      cases hd : st.done with
      | false => rfl
      | true =>
          cases ht.retired hd with
          | ended ht _ => rw [hp] at ht; cases ht
          | cancelled hs _ | recalled hs _ | lost hs _ _ => rw [hp] at hs; cases hs
  | launch | begin | beginLate | openPool | openNone | openNever | fill | handIn | record | drop
  | noSession | complete | stop | giveUp | giveUpLate | expire => exact ⟨nofun, fun h => nomatch h.1⟩

end RunState

namespace Supervisor

theorem done_outcome_of_stays (hk : (s.keep t).1 = none) (hl : t.leaves = false) :
    (s.outcome t).done = t.next.done := by
  unfold outcome
  rw [hk]
  simp [hl]

/-- A change that leaves a run waited for, and does not end its dispatch. -/
theorem doneAtRest_of_not_done (hk : (s.keep t).1 = none) (hl : t.leaves = false)
    (hd : t.next.dispatch ≠ .ended) (hn : t.next.done = false) : (s.outcome t).DoneAtRest := by
  refine ⟨fun h => ?_, fun h => ?_⟩
  · exact absurd ((dispatch_outcome_of_no_fault hk).symm.trans h) hd
  · rw [done_outcome_of_stays hk hl, hn] at h
    cases h

/-- A run that is cancelled is put to rest if its dispatch was not asked for; else it rests where it did. -/
theorem doneAtRest_cancel (hk : (s.keep (st.isCancelled s.now)).1 = none)
    (ho : st.run.isOpen = true) (h : st.DoneAtRest) :
    (s.outcome (st.isCancelled s.now)).DoneAtRest := by
  have hs : (s.outcome (st.isCancelled s.now)).run.status = .cancelled := by
    rw [run_outcome]
    rfl
  have hd : (s.outcome (st.isCancelled s.now)).dispatch = st.dispatch :=
    dispatch_outcome_of_no_fault hk
  cases hl : (st.isCancelled s.now).leaves with
  | true =>
      have hp : st.run.status = .pending ∧ st.dispatch = .idle := of_decide_eq_true hl
      exact ⟨fun he => (by rw [hd, hp.2] at he; cases he), fun _ => .cancelled hs (hd.trans hp.2)⟩
  | false =>
      have hdone : (s.outcome (st.isCancelled s.now)).done = st.done := done_outcome_of_stays hk hl
      refine ⟨fun he => hdone.trans (h.ended (hd ▸ he)), fun hr => ?_⟩
      -- a run at rest that has not ended was lost
      cases h.retired (hdone ▸ hr) with
      | ended ht _ => exact absurd ht (Run.not_isTerminal ho)
      | cancelled hs _ | recalled hs _ => exact absurd ho (by simp [Run.isOpen, hs, RunStatus.isTerminal])
      | lost _ _ he => exact .ended (by rw [hs]; rfl) (hd.trans he)

/-- **Every change keeps waiting and rest in step**, if its save does not break. -/
theorem doneAtRest_outcome (hg : st.Goes s.now o t) (hf : st.dispatch.Fits st.run)
    (hk : (s.keep t).1 = none) (hc : s.canRetain = true)
    (hlost : st.Stranded → st.run.config.timeLimit.IsBeyond) (h : st.DoneAtRest) :
    (s.outcome t).DoneAtRest := by
  have hdisp := dispatch_outcome_of_no_fault hk
  have busy {d : Dispatch} (hd : st.dispatch = d) (hb : d.isBusy = true) : st.done = false :=
    h.of_isBusy (by rw [hd, hb])
  -- a run whose dispatch was asked for and not begun was cancelled, if it is at rest
  have early {d : Dispatch} (hd : st.dispatch = d) (hi : d = .idle ∨ d = .called)
      (hr : st.done = true) : st.run.status = .cancelled := by
    subst hd
    cases h.retired hr with
    | cancelled hs _ | recalled hs _ => exact hs
    | ended _ he | lost _ _ he => rw [he] at hi; rcases hi with hi | hi <;> cases hi
  cases hg with
  | launch hd =>
      refine ⟨fun he => (by rw [hdisp] at he; cases he), fun hr => ?_⟩
      rw [done_outcome_of_stays hk rfl] at hr
      exact .recalled (by rw [run_outcome]; exact early hd (.inl rfl) hr) (.inl hdisp)
  | begin hd hs =>
      refine doneAtRest_of_not_done hk rfl nofun ?_
      cases hr : st.done with
      | false => rfl
      | true =>
          rw [early hd (.inr rfl) hr] at hs
          cases hs
  | beginLate hd hs =>
      refine ⟨fun he => (by rw [hdisp] at he; cases he), fun hr => ?_⟩
      rw [done_outcome_of_stays hk rfl] at hr
      exact .recalled (by rw [run_outcome]; exact early hd (.inr rfl) hr) (.inr hdisp)
  | openPool _ _ _ hd | openNone _ _ _ hd | openNever _ hd | fill _ hd | handIn _ _ _ _ hd
  | record _ _ _ _ hd | drop _ _ _ _ _ hd | noSession _ _ _ _ hd | complete _ hd | stop _ hd
  | giveUp _ hd | giveUpLate _ hd => exact doneAtRest_of_not_done hk rfl nofun (busy hd rfl)
  | depart hd =>
      have hdone : (s.outcome { next := { st with dispatch := .ended }, leaves := true }).done = true := by
        rw [done_outcome_of_leaves hk rfl, hc, Bool.or_true]
      refine ⟨fun _ => hdone, fun _ => ?_⟩
      rcases hf.terminal_or_running (by rw [hd]; rfl) with ht | hs
      · exact .ended (by rw [run_outcome]; exact ht) hdisp
      · refine .lost (by rw [run_outcome]; exact hs) ?_ hdisp
        rw [run_outcome]
        exact hlost ⟨hs, .inl hd⟩
  | expire hd ho =>
      have hb : st.dispatch.isBusy = true := by
        rcases hd with ⟨pool, hd⟩ | ⟨message, hd⟩ <;> rw [hd] <;> rfl
      have hne : st.dispatch ≠ .ended := fun he => by rw [he] at hb; cases hb
      exact doneAtRest_of_not_done hk rfl hne (h.of_isBusy hb)
  | cancel ho => exact doneAtRest_cancel hk ho h

/-! ## 2. The queue -/

/-- A run is put behind the queue, and those that leave memory are taken from its front. -/
theorem departing_append_retire : s.departing id ++ (s.retire id).retired =
    if s.retired.contains id || (s.state? id).isNone then s.retired else s.retired ++ [id] := by
  unfold departing retire
  split
  · rfl
  · exact List.take_append_drop _ _

theorem length_retired_retire (h : s.retired.length ≤ s.retention) :
    (s.retire id).retired.length ≤ s.retention := by
  unfold retire
  split
  · exact h
  · show ((s.retired ++ [id]).drop ((s.retired ++ [id]).length - s.retention)).length ≤ s.retention
    rw [List.length_drop]
    omega

theorem retention_retire : (s.retire id).retention = s.retention := by
  unfold retire
  split <;> rfl

/-- **The queue after a run is put to rest**: the run joins it, unless it was there, and those that leave
    memory are taken from its front, so that it is within the limit. -/
theorem queue_of_leaves (hc : s.change? id o = some t) (hk : (s.keep t).1 = none)
    (hl : t.leaves = true) : s.departing id ++ (s.take t).2.retired =
      (if id ∈ s.retired then s.retired else s.retired ++ [id]) ∧
    (s.retired.length ≤ s.retention → (s.take t).2.retired.length ≤ s.retention) := by
  have hid := id_of_change? hc
  obtain ⟨s', e, hr, -, hd, hs'⟩ := take_of_leaves hk hl (isSome_of_change? hc)
  have hret : s'.retention = s.retention := by
    rw [← retention_retire, ← e]
    unfold retention
    rw [(frame_take s t).1]
  have hi' : (s'.state? id).isNone = false := by rw [hs', if_pos hid.symm]; rfl
  rw [hid] at e hd
  rw [e, ← hr, ← hd, ← hret, departing_append_retire, hi', Bool.or_false]
  exact ⟨by simp, length_retired_retire⟩

/-- Nobody is in the queue twice, and nobody has left it who is still there. -/
theorem mem_retired_iff_of_leaves (hc : s.change? id o = some t) (hk : (s.keep t).1 = none)
    (hl : t.leaves = true) (hn : s.retired.Nodup) : k ∈ (s.take t).2.retired ↔
      (k ∈ s.retired ∨ k = id) ∧ k ∉ s.departing id := by
  have e := (queue_of_leaves hc hk hl).1
  have hmem : k ∈ s.departing id ++ (s.take t).2.retired ↔ k ∈ s.retired ∨ k = id := by
    rw [e]
    split
    · next hid => exact ⟨.inl, fun h => h.elim (fun h => h) fun e => e ▸ hid⟩
    · simp
  have hnodup : (s.departing id ++ (s.take t).2.retired).Nodup := by
    rw [e]
    split
    · exact hn
    · next hid => simpa using List.Nodup.concat hid hn
  rw [← hmem, List.mem_append]
  refine ⟨fun h => ⟨.inr h, fun hd => ?_⟩, fun ⟨h, hd⟩ => h.resolve_left hd⟩
  exact (List.nodup_append.mp hnodup).2.2 k hd k h rfl

theorem nodup_departing (hn : s.retired.Nodup) : (s.departing id).Nodup := by
  unfold departing
  split
  · exact .nil
  · next hc => exact (List.take_sublist _ _).nodup (nodup_queue hn hc)

/-! ## 3. What every move keeps -/

/-- The queue holds the runs at rest in memory, as many as may be, and only such runs have left it. -/
structure WellQueued (s : Supervisor) : Prop where
  sound : s.Sound
  canRetain : s.canRetain = true
  within : s.retired.length ≤ s.retention
  queued : ∀ k, k ∈ s.retired ↔ ∃ st, s.state? k = some st ∧ st.done = true
  doneAtRest : ∀ k st, s.state? k = some st → st.DoneAtRest
  lost : ∀ k st, s.state? k = some st → st.Stranded → st.run.config.timeLimit.IsBeyond
  left : ∀ st ∈ s.evicted, st.done = true ∧ st.Retired

theorem wellQueued_new {settings : Settings} {archive : Archive} {now : Instant}
    (hr : 0 ≤ settings.retainedRuns) : (new settings archive now).WellQueued := by
  have hnone (k : String) (st : RunState) : (new settings archive now).state? k ≠ some st := by
    rw [state?_new]
    exact nofun
  refine ⟨sound_new settings archive now, decide_eq_true hr, Nat.zero_le _, fun k => ?_,
    fun k st h => (hnone k st h).elim, fun k st h => (hnone k st h).elim,
    fun st h => absurd h List.not_mem_nil⟩
  exact ⟨fun h => absurd h List.not_mem_nil, fun ⟨st, h, _⟩ => (hnone k st h).elim⟩

/-- What became of a run is as it should be, also where the run leaves memory. -/
theorem WellQueued.doneAtRest_of_became (ho : s.WellQueued) (hb : ¬ s.Breaks m) (h : s.Became m k st) :
    st.DoneAtRest := by
  cases h with
  | kept _ hk _ => exact ho.doneAtRest k st hk
  | registered run _ _ _ _ => exact ⟨nofun, nofun⟩
  | changed st o t hm hk hc hg =>
      subst hm
      exact doneAtRest_outcome hg (ho.sound.fits k st hk) (keep_of_not_breaks hc hb) ho.canRetain
        (ho.lost k st hk) (ho.doneAtRest k st hk)

/-- The runs for which nobody has to wait change only as some run is put to rest. -/
theorem done_iff_of_not_parts (hb : ¬ s.Breaks m) (hp : ¬ s.Parts m) :
    (∃ st, (s.perform m).state? k = some st ∧ st.done = true) ↔
      ∃ st, s.state? k = some st ∧ st.done = true := by
  have hchanged {st : RunState} {o : Occasion} {t : Change} (hm : m = .occur k o)
      (hc : s.change? k o = some t) (hg : st.Goes s.now o t) : (s.outcome t).done = st.done := by
    subst hm
    have hk := keep_of_not_breaks hc hb
    rw [done_outcome_of_stays hk, RunState.done_of_goes hg]
    rw [← Bool.not_eq_true]
    exact fun hl => hp ⟨k, o, t, rfl, hc, hk, hl⟩
  constructor
  · rintro ⟨st', hst', hd⟩
    cases became_of_state? hst' with
    | kept _ hk _ => exact ⟨st', hk, hd⟩
    | registered run _ _ _ _ => cases hd
    | changed st o t hm hk hc hg => exact ⟨st, hk, hchanged hm hc hg ▸ hd⟩
  · rintro ⟨st, hst, hd⟩
    cases hst' : (s.perform m).state? k with
    | none =>
        obtain ⟨id, o, t, hm, hc, hk, hl, -⟩ := departs_of_left hst hst'
        exact absurd ⟨id, o, t, hm, hc, hk, hl⟩ hp
    | some st' =>
        refine ⟨st', rfl, ?_⟩
        cases became_of_state? hst' with
        | kept _ hk _ =>
            rw [hst] at hk
            cases hk
            exact hd
        | registered run _ _ _ hn =>
            rw [hst] at hn
            cases hn
        | changed st₀ o t hm hk hc hg =>
            rw [hst] at hk
            cases hk
            exact (hchanged hm hc hg).trans hd

/-- The runs that leave memory are at rest. -/
theorem WellQueued.left_of_leaves (ho : s.WellQueued) (hc : s.change? id o = some t)
    (hk : (s.keep t).1 = none) (hl : t.leaves = true) (hb : ¬ s.Breaks (.occur id o))
    (h : st ∈ (s.take t).2.evicted) : st.done = true ∧ st.Retired := by
  obtain ⟨st₀, hst₀, hg⟩ := change?_eq_some hc
  rw [evicted_take (isSome_of_change? hc) hk hl, id_of_change? hc] at h
  rcases List.mem_append.mp h with h | h
  · exact ho.left st h
  · obtain ⟨k, hdep, hst⟩ := List.mem_filterMap.mp h
    split at hst
    · next hkid =>
        subst hkid
        cases hst
        have hdone : (s.outcome t).done = true := by
          rw [done_outcome_of_leaves hk hl, ho.canRetain, Bool.or_true]
        exact ⟨hdone, (ho.doneAtRest_of_became hb (.changed st₀ o t rfl hst₀ hc hg)).retired hdone⟩
    · next hkid =>
        obtain ⟨st', hst', hdone⟩ := (ho.queued k).mp ((mem_departing hdep).resolve_right hkid)
        rw [hst] at hst'
        cases hst'
        exact ⟨hdone, (ho.doneAtRest k st hst).retired hdone⟩

/-- **Every move keeps the queue as it should be**, if its save does not break. -/
theorem wellQueued_perform (ho : s.WellQueued) (hb : ¬ s.Breaks m) : (s.perform m).WellQueued := by
  have hret : (s.perform m).retention = s.retention := by
    unfold retention
    rw [(frame_perform s m).1]
  have hcan : (s.perform m).canRetain = true := by
    unfold canRetain
    rw [(frame_perform s m).1]
    exact ho.canRetain
  have hsound := sound_perform ho.sound m
  have hdone (k : String) (st : RunState) (h : (s.perform m).state? k = some st) : st.DoneAtRest :=
    ho.doneAtRest_of_became hb (became_of_state? h)
  have hlost (k : String) (st : RunState) (h : (s.perform m).state? k = some st) :=
    isBeyond_of_became ho.sound hb (ho.lost k) (became_of_state? h)
  by_cases hp : s.Parts m
  · obtain ⟨id, o, t, rfl, hc, hk, hl⟩ := hp
    rw [perform_of_some hc] at *
    refine ⟨hsound, hcan, hret ▸ (queue_of_leaves hc hk hl).2 ho.within, fun k => ?_, hdone, hlost,
      fun st hst => ho.left_of_leaves hc hk hl hb hst⟩
    rw [mem_retired_iff_of_leaves hc hk hl ho.sound.nodup, state?_take_of_change? hc]
    by_cases hd : k ∈ s.departing id
    · rw [if_pos ⟨hk, hl, hd⟩]
      exact ⟨fun h => absurd hd h.2, fun ⟨_, h, _⟩ => nomatch h⟩
    · rw [if_neg fun h => hd h.2.2, and_iff_left hd]
      split
      · next hkid =>
          refine ⟨fun _ => ⟨_, rfl, ?_⟩, fun _ => .inr hkid⟩
          rw [done_outcome_of_leaves hk hl, ho.canRetain, Bool.or_true]
      · next hkid => rw [or_iff_left hkid, ho.queued]
  · obtain ⟨hr, he⟩ := queue_of_not_parts hp
    refine ⟨hsound, hcan, ?_, fun k => ?_, hdone, hlost, ?_⟩
    · rw [hr, hret]
      exact ho.within
    · rw [hr, ho.queued, done_iff_of_not_parts hb hp]
    · rw [he]
      exact ho.left

/-- **The queue is as it should be after every history** whose saves do not break. -/
theorem wellQueued_after (ho : s.WellQueued) (hu : s.Unbroken h) : (s.after h).WellQueued := by
  induction h generalizing s with
  | nil => exact ho
  | cons m h ih => exact ih (wellQueued_perform ho hu.1) hu.2

/-! ## 4. Who comes and who goes -/

/-- The id under which a move has a run taken over. -/
def takesOver (s : Supervisor) : Move → Option String
  | .register run => if s.accepts run then some run.id else none
  | _ => none

/-- The id of the run that comes to rest with a move. -/
def comesToRest (s : Supervisor) : Move → Option String
  | .occur id o => if (s.state? id).any (·.restsOn o) then some id else none
  | _ => none

/-- What the moves of a history bring, in order. -/
def along (s : Supervisor) (f : Supervisor → Move → Option String) : List Move → List String
  | [] => []
  | m :: h => (f s m).toList ++ (s.perform m).along f h

theorem takesOver_eq_some : s.takesOver m = some k ↔
    ∃ run, m = .register run ∧ run.id = k ∧ s.accepts run = true := by
  cases m with
  | register run =>
      show (if s.accepts run then some run.id else none) = some k ↔ _
      cases ha : s.accepts run with
      | true => simp [ha]
      | false => simp [ha]
  | occur | subscribe | unsubscribe | read | clock => simp [takesOver]

/-- A run that comes to rest is put to rest. -/
theorem change?_of_restsOn (hst : s.state? id = some st) (hr : st.restsOn o = true) :
    ∃ t, s.change? id o = some t := by
  rw [change?_of_state? hst]
  cases o with
  | depart =>
      have hd : st.dispatch = .leaving := by
        have := (Bool.and_eq_true _ _).mp hr
        exact of_decide_eq_true this.1
      rw [RunState.on.eq_def, hd]
      exact ⟨_, rfl⟩
  | cancel =>
      have hp : st.run.status = .pending := by
        have := (Bool.and_eq_true _ _).mp hr
        exact of_decide_eq_true this.1
      have ho : st.run.isOpen = true := by simp [Run.isOpen, hp, RunStatus.isTerminal]
      rw [RunState.on.eq_def]
      simp [ho]
  | launch | begin | openPool | fill | handIn | collect | complete | giveUp | expire => cases hr

/-- A run comes to rest with a move that puts it to rest, unless it was at rest. -/
theorem WellQueued.comesToRest_of_leaves (ho : s.WellQueued) (hc : s.change? id o = some t)
    (hl : t.leaves = true) :
    s.comesToRest (.occur id o) = if id ∈ s.retired then none else some id := by
  obtain ⟨st, hst, hg⟩ := change?_eq_some hc
  have hiff := RunState.restsOn_iff hg (ho.doneAtRest id st hst)
  have hq : id ∈ s.retired ↔ st.done = true := by
    rw [ho.queued, hst]
    simp
  unfold comesToRest
  simp only [hst, Option.any_some]
  rw [hl] at hiff
  by_cases hd : st.done = true
  · simp_all
  · simp_all

theorem comesToRest_of_not_parts (ho : s.WellQueued) (hb : ¬ s.Breaks m) (hp : ¬ s.Parts m) :
    s.comesToRest m = none := by
  cases m with
  | occur id o =>
      unfold comesToRest
      simp only [ite_eq_right_iff, reduceCtorEq, imp_false]
      intro hr
      obtain ⟨st, hst, hr⟩ := (Option.any_eq_true _ _).mp hr
      obtain ⟨t, hc⟩ := change?_of_restsOn hst hr
      obtain ⟨st', hst', hg⟩ := change?_eq_some hc
      rw [hst] at hst'
      cases hst'
      have hl := ((RunState.restsOn_iff hg (ho.doneAtRest id st hst)).mp hr).1
      exact hp ⟨id, o, t, rfl, hc, keep_of_not_breaks hc hb, hl⟩
  | register | subscribe | unsubscribe | read | clock => rfl

/-- The runs that left memory with a move are those that left the queue. -/
theorem Sound.ids_evicted (hs : s.Sound) (hc : s.change? id o = some t)
    (hk : (s.keep t).1 = none) (hl : t.leaves = true) :
    (s.take t).2.evicted.map (·.run.id) = s.evicted.map (·.run.id) ++ s.departing id := by
  have hid := id_of_change? hc
  rw [evicted_take (isSome_of_change? hc) hk hl, hid, List.map_append, List.map_filterMap]
  congr 1
  refine (List.filterMap_congr fun k hd => ?_).trans List.filterMap_some
  show Option.map _ _ = some k
  split
  · next hkid => rw [Option.map_some, run_outcome, hid, hkid]
  · next hkid =>
      obtain ⟨st', hst', -⟩ := hs.retired k ((mem_departing hd).resolve_right hkid)
      rw [hst', Option.map_some, id_of_state? hst']

/-- **Those that left and those in the queue**, in order: a run joins them as it comes to rest. -/
theorem evicted_append_retired (ho : s.WellQueued) (hb : ¬ s.Breaks m) :
    (s.perform m).evicted.map (·.run.id) ++ (s.perform m).retired =
      s.evicted.map (·.run.id) ++ s.retired ++ (s.comesToRest m).toList := by
  by_cases hp : s.Parts m
  · obtain ⟨id, o, t, rfl, hc, hk, hl⟩ := hp
    rw [perform_of_some hc, ho.sound.ids_evicted hc hk hl, ho.comesToRest_of_leaves hc hl,
      List.append_assoc, (queue_of_leaves hc hk hl).1, List.append_assoc]
    split
    · rw [Option.toList_none, List.append_nil]
    · rfl
  · obtain ⟨hr, he⟩ := queue_of_not_parts hp
    rw [hr, he, comesToRest_of_not_parts ho hb hp, Option.toList_none, List.append_nil]

/-- How many runs of an id have left memory, or are in it. -/
def tally (s : Supervisor) (id : String) : Nat :=
  (s.evicted.map (·.run.id)).count id + if (s.state? id).isSome then 1 else 0

theorem count_takesOver : (s.takesOver m).toList.count k = if s.takesOver m = some k then 1 else 0 := by
  cases s.takesOver m with
  | none => simp
  | some id => simp [List.count_singleton]

/-- A run is in memory if it was there, or is just taken over, unless some run is put to rest. -/
theorem isSome_state?_of_not_parts (hp : ¬ s.Parts m) :
    ((s.perform m).state? k).isSome = true ↔
      (s.state? k).isSome = true ∨ s.takesOver m = some k := by
  constructor
  · intro h
    obtain ⟨st', hst'⟩ := Option.isSome_iff_exists.mp h
    cases became_of_state? hst' with
    | kept _ hk _ | changed _ _ _ _ hk _ _ =>
        rw [hk]
        exact .inl rfl
    | registered run hm hid _ hn =>
        subst hm
        refine .inr (takesOver_eq_some.mpr ⟨run, rfl, hid, ?_⟩)
        cases ha : s.accepts run with
        | true => rfl
        | false =>
            rw [show s.perform (.register run) = s from register_of_not_accepts ha, hn] at hst'
            cases hst'
  · rintro (h | h)
    · obtain ⟨st, hst⟩ := Option.isSome_iff_exists.mp h
      cases hst' : (s.perform m).state? k with
      | some st' => rfl
      | none =>
          obtain ⟨id, o, t, hm, hc, hk, hl, -⟩ := departs_of_left hst hst'
          exact absurd ⟨id, o, t, hm, hc, hk, hl⟩ hp
    · obtain ⟨run, rfl, rfl, ha⟩ := takesOver_eq_some.mp h
      rw [state?_of_accepts ha]
      rfl

/-- A run that leaves memory was there. -/
theorem Sound.isSome_of_departing (hs : s.Sound) (hi : (s.state? id).isSome = true)
    (hd : k ∈ s.departing id) : (s.state? k).isSome = true := by
  rcases mem_departing hd with hk | rfl
  · obtain ⟨st, hst, -⟩ := hs.retired k hk
    rw [hst]
    rfl
  · exact hi

/-- **Every run that is taken over** is in memory from then on, until it leaves it. -/
theorem tally_perform (hs : s.Sound) :
    (s.perform m).tally k = s.tally k + (s.takesOver m).toList.count k := by
  unfold tally
  by_cases hp : s.Parts m
  · obtain ⟨id, o, t, rfl, hc, hk, hl⟩ := hp
    obtain ⟨st, hst, -⟩ := change?_eq_some hc
    have hi : (s.state? id).isSome = true := by rw [hst]; rfl
    have hcount : (s.departing id).count k = if k ∈ s.departing id then 1 else 0 :=
      List.Nodup.count (nodup_departing hs.nodup)
    rw [perform_of_some hc, hs.ids_evicted hc hk hl, List.count_append, hcount,
      state?_take_of_change? hc, show s.takesOver (.occur id o) = none from rfl]
    by_cases hd : k ∈ s.departing id
    · simp [hd, hk, hl, hs.isSome_of_departing hi hd]
    · by_cases hkid : k = id
      · subst hkid
        simp [hd, hi]
      · simp [hd, hkid]
  · rw [(queue_of_not_parts hp).2, count_takesOver, Nat.add_assoc]
    congr 1
    have hiff := isSome_state?_of_not_parts (k := k) hp
    by_cases ht : s.takesOver m = some k
    · obtain ⟨run, -, rfl, ha⟩ := takesOver_eq_some.mp ht
      have hn : s.state? run.id = none := (not_knows_of_accepts ha).2
      simp [hiff, ht, hn]
    · simp [hiff, ht]

/-! ## 5. Whole histories -/

theorem evicted_append_retired_after (ho : s.WellQueued) (hu : s.Unbroken h) :
    (s.after h).evicted.map (·.run.id) ++ (s.after h).retired =
      s.evicted.map (·.run.id) ++ s.retired ++ s.along comesToRest h := by
  induction h generalizing s with
  | nil => exact (List.append_nil _).symm
  | cons m h ih =>
      rw [after_cons, ih (wellQueued_perform ho hu.1) hu.2, evicted_append_retired ho hu.1,
        List.append_assoc]
      rfl

theorem tally_after (hs : s.Sound) :
    (s.after h).tally k = s.tally k + (s.along takesOver h).count k := by
  induction h generalizing s with
  | nil => rfl
  | cons m h ih =>
      rw [after_cons, ih (sound_perform hs m), tally_perform hs, Nat.add_assoc]
      exact congrArg (s.tally k + ·) List.count_append.symm

/-- A run whose dispatch was asked for after it was cancelled can leave memory before that begins. -/
example : ((Sample.supervisor 1 fun _ => none).after
    [.register (Sample.run 1000), .occur Sample.runId .cancel, .occur Sample.runId .launch,
      .register Sample.second, .occur Sample.second.id .cancel]).evicted.map
      (fun st => (st.run.id, st.run.status, st.dispatch)) = [(Sample.runId, .cancelled, .called)] := by
  decide +kernel

/-- A run with a time limit beyond the format is put to rest while it is running: it stands in the queue,
    or leaves memory, though no save breaks. -/
theorem retired_running :
    let s (retainedRuns : Int) := Sample.supervisor retainedRuns fun _ => none
    (s 1).Unbroken Sample.lost ∧ (s 0).Unbroken Sample.lost ∧
      ((s 1).after Sample.lost).retired = [Sample.runId] ∧
      (((s 1).after Sample.lost).run? Sample.runId).map (·.status) = some .running ∧
      ((s 0).after Sample.lost).evicted.map (fun st => (st.run.id, st.run.status)) =
        [(Sample.runId, .running)] := by
  decide +kernel

end Supervisor

end StepRunner
