import StepRunner.Proofs.Supervisor.Changes
import StepRunner.Proofs.Supervisor.Pool

/-!
# What can happen to a run

`RunState.Goes` lists every way in which a run in memory can change, with all that is known at that
moment: where the dispatch stands, whether the run is open, which case has ended. `goes_of_on` reads it
off `RunState.on`; whatever is to be kept by every change is proved by one case for each way.

* `Dispatch.Fits`: the dispatch of a run fits its status, and its pool holds cases of the run, among them
  every case that the run awaits; every change keeps it (`fits_of_goes`);
* `turns_of_goes`: what a change makes of the run itself is one of `Run.Turns`, with the news of it;
* `RunState.AtRest`: the run has ended, or its dispatch has (`atRest_of_goes`, `atRest_of_leaves`);
* `RunState.Stranded`: the run is running and its dispatch is over; `stranded_of_goes` says which
  changes lead there.
-/

namespace StepRunner

/-! ## 1. The ways of a run -/

namespace RunState

/-- How a run can change on an occasion. -/
inductive Goes (st : RunState) (now : Instant) : Occasion → Change → Prop where
  | launch (hd : st.dispatch = .idle) :
      Goes st now .launch { next := { st with dispatch := .called } }
  | begin (hd : st.dispatch = .called) (hs : st.run.status = .pending) :
      Goes st now .begin
        { next := { st with run := st.run.started now, dispatch := .begun }
          saved := true
          ifBroken := fun _ => .leaving
          news := [.started (st.run.started now).toJson] }
  | beginLate (hd : st.dispatch = .called) (hs : st.run.status ≠ .pending) :
      Goes st now .begin
        { next := { st with dispatch := .leaving }, lines := [.notDispatched st.run] }
  | openPool (slots : Nat) (deadline : Instant) (lines : List JournalLine)
      (hd : st.dispatch = .begun)
      (hl : st.run.config.timeLimit.deadline? now = some deadline) :
      Goes st now .openPool
        { next := { st with
            dispatch := .active { slots, waiting := st.run.testCases, deadline } }, lines }
  | openNone (message : String) (deadline : Instant) (lines : List JournalLine)
      (hd : st.dispatch = .begun)
      (hl : st.run.config.timeLimit.deadline? now = some deadline) :
      Goes st now .openPool { next := { st with dispatch := .broken message }, lines }
  | openNever (lines : List JournalLine) (hd : st.dispatch = .begun)
      (hl : st.run.config.timeLimit.deadline? now = none) :
      Goes st now .openPool { next := { st with dispatch := .leaving }, lines }
  | fill (pool : Pool) (hd : st.dispatch = .active pool) (ho : st.run.isOpen = true) :
      Goes st now .fill
        { next := { st with
            dispatch := .active pool.filled
            entered := st.entered ++ pool.entering } }
  | handIn (pool : Pool) (c : TestCase) (caseId : String) (outcome : CaseOutcome)
      (hd : st.dispatch = .active pool) (hc : pool.inFlight.find? (·.id == caseId) = some c) :
      Goes st now (.handIn caseId outcome)
        { next := { st with dispatch := .active (pool.withEnd c (outcome.handedIn now)) }
          lines := outcome.lines c }
  | record (pool : Pool) (c : TestCase) (caseId : String) (r : CaseResult)
      (hd : st.dispatch = .active pool)
      (hc : pool.finished.find? (·.1.id == caseId) = some (c, .result r))
      (ha : st.run.awaits c.id = true) :
      Goes st now (.collect caseId)
        { next := { st with
            run := st.run.recorded c.id r
            dispatch := .active (pool.without caseId) }
          saved := true
          ifBroken := fun fault => .broken fault.message
          lines := [.caseEnded (st.run.recorded c.id r) c.id r]
          news := [ .progress (.int (st.run.recorded c.id r).counts.completed)
              (.int (st.run.recorded c.id r).counts.total),
            .caseCompleted c.id c.title (some r) ] }
  | drop (pool : Pool) (c : TestCase) (caseId : String) (x : HandedIn) (lines : List JournalLine)
      (hd : st.dispatch = .active pool)
      (hc : pool.finished.find? (·.1.id == caseId) = some (c, x))
      (ha : st.run.awaits c.id = false) (hn : (∃ r, x = .result r) ∨ st.run.isOpen = false) :
      Goes st now (.collect caseId)
        { next := { st with dispatch := .active (pool.without caseId) }, lines }
  | noSession (pool : Pool) (c : TestCase) (caseId message : String)
      (hd : st.dispatch = .active pool)
      (hc : pool.finished.find? (·.1.id == caseId) = some (c, .noSession message))
      (ho : st.run.isOpen = true) :
      Goes st now (.collect caseId)
        { { st with dispatch := .leaving }.ends
            (st.run.failed ("Browser provisioning failed: " ++ message) now)
            (.failed st.run ("Browser provisioning failed: " ++ message))
            (.error ("Browser provisioning failed: " ++ message)) with
          before := [.noSession c.id message]
          ifBroken := fun fault => .broken fault.message }
  | complete (pool : Pool) (hd : st.dispatch = .active pool) (ho : st.run.isOpen = true)
      (he : pool.isEmpty = true) : Goes st now .complete (st.completes now)
  | stop (pool : Pool) (hd : st.dispatch = .active pool) (ho : st.run.isOpen = false)
      (hq : pool.isQuiet = true) :
      Goes st now .complete { next := { st with dispatch := .leaving } }
  | giveUp (message : String) (hd : st.dispatch = .broken message) (ho : st.run.isOpen = true) :
      Goes st now .giveUp
        { { st with dispatch := .leaving }.ends
            (st.run.failed ("Dispatcher error: " ++ message) now)
            (.failed st.run ("Dispatcher error: " ++ message))
            (.error ("Dispatcher error: " ++ message)) with
          before := [.dispatchBroke st.run] }
  | giveUpLate (message : String) (hd : st.dispatch = .broken message)
      (ho : st.run.isOpen = false) :
      Goes st now .giveUp
        { next := { st with dispatch := .leaving }, before := [.dispatchBroke st.run] }
  | depart (hd : st.dispatch = .leaving) :
      Goes st now .depart { next := { st with dispatch := .ended }, leaves := true }
  | expire (hd : (∃ pool, st.dispatch = .active pool) ∨ ∃ message, st.dispatch = .broken message)
      (ho : st.run.isOpen = true) :
      Goes st now .expire
        { st.ends (st.run.failed (Supervisor.timeLimitMessage st.run) now)
            (.failed st.run (Supervisor.timeLimitMessage st.run))
            (.error (Supervisor.timeLimitMessage st.run)) with
          before := [.timeLimitReached st.run] }
  | cancel (ho : st.run.isOpen = true) : Goes st now .cancel (st.isCancelled now)

variable {st : RunState} {settings : Settings} {now : Instant} {o : Occasion} {t : Change}

theorem fails_of_terminal (message : String) (h : st.run.status.isTerminal = true) :
    st.fails message now = { next := st } := by
  unfold fails
  rw [if_pos h]

theorem fails_of_open (message : String) (h : st.run.isOpen = true) :
    st.fails message now =
      st.ends (st.run.failed message now) (.failed st.run message) (.error message) := by
  unfold fails
  rw [if_neg (by simpa [Run.isOpen] using h)]

theorem goes_begins (hd : st.dispatch = .called) : st.Goes now .begin (st.begins now) := by
  unfold begins
  split
  · next hs => exact .begin hd hs
  · next hs => exact .beginLate hd hs

theorem goes_opens (hd : st.dispatch = .begun) : st.Goes now .openPool (st.opens settings now) := by
  have h : ∀ d,
      st.run.config.timeLimit.deadline? now = none ∧ d = .leaving ∨
      (∃ deadline, st.run.config.timeLimit.deadline? now = some deadline ∧
        ((∃ message, d = .broken message) ∨
          ∃ slots, d = .active { slots, waiting := st.run.testCases, deadline })) →
      st.Goes now .openPool { next := { st with dispatch := d }
                              lines := [.started st.run (settings.slots st.run.config)] } := by
    rintro d (⟨hl, rfl⟩ | ⟨deadline, hl, ⟨message, rfl⟩ | ⟨slots, rfl⟩⟩)
    · exact .openNever _ hd hl
    · exact .openNone _ _ _ hd hl
    · exact .openPool _ _ _ hd hl
  refine h _ ?_
  split
  · next hl => exact .inl ⟨hl, rfl⟩
  · next deadline hl =>
      refine .inr ⟨deadline, hl, ?_⟩
      split
      · exact .inl ⟨_, rfl⟩
      · exact .inr ⟨_, rfl⟩

theorem goes_collects {pool : Pool} {caseId : String} {c : TestCase} {x : HandedIn}
    (hd : st.dispatch = .active pool)
    (hc : pool.finished.find? (·.1.id == caseId) = some (c, x)) :
    st.Goes now (.collect caseId)
      ({ st with dispatch := .active (pool.without caseId) }.collects c now x) := by
  cases x with
  | result r =>
      simp only [collects, takes]
      split
      · next ha => exact .record pool c caseId r hd hc ha
      · next ha => exact .drop pool c caseId _ _ hd hc (by simpa using ha) (.inl ⟨r, rfl⟩)
  | noSession message =>
      simp only [collects, lacksSession]
      split
      · next hs =>
          have ho : st.run.isOpen = false := by simp [Run.isOpen, hs]
          refine .drop pool c caseId _ _ hd hc ?_ (.inr ho)
          cases hr : st.run.status <;> simp_all [Run.awaits, RunStatus.isTerminal]
      · next hs =>
          have ho : st.run.isOpen = true := by simpa [Run.isOpen] using hs
          rw [@fails_of_open { st with dispatch := .leaving } now _ ho]
          exact .noSession pool c caseId message hd hc ho

theorem goes_givesUp {message : String} (hd : st.dispatch = .broken message) :
    st.Goes now .giveUp (st.givesUp message now) := by
  unfold givesUp
  cases ho : st.run.isOpen with
  | true =>
      rw [@fails_of_open { st with dispatch := .leaving } now _ ho]
      exact .giveUp message hd ho
  | false =>
      rw [@fails_of_terminal { st with dispatch := .leaving } now _ (Run.not_isOpen_iff.mp ho)]
      exact .giveUpLate message hd ho

theorem goes_expires
    (hd : (∃ pool, st.dispatch = .active pool) ∨ ∃ message, st.dispatch = .broken message)
    (ho : st.run.isOpen = true) : st.Goes now .expire (st.expires now) := by
  unfold expires
  rw [fails_of_open _ ho]
  exact .expire hd ho

/-- **A run changes in one of the listed ways.** -/
theorem goes_of_on (h : st.on settings now o = some t) : st.Goes now o t := by
  unfold on at h
  split at h
  · next hd =>
      cases h
      exact .launch hd
  · next hd =>
      cases h
      exact goes_begins hd
  · next hd =>
      cases h
      exact goes_opens hd
  · next pool hd =>
      split at h
      · next ho =>
          cases h
          exact .fill pool hd ho
      · cases h
  · next caseId outcome pool hd =>
      obtain ⟨c, hc, rfl⟩ := Option.map_eq_some_iff.mp h
      exact .handIn pool c caseId outcome hd hc
  · next caseId pool hd =>
      obtain ⟨⟨c, x⟩, hc, rfl⟩ := Option.map_eq_some_iff.mp h
      exact goes_collects hd hc
  · next pool hd =>
      split at h
      · next ho =>
          split at h
          · next he =>
              cases h
              exact .complete pool hd ho he
          · cases h
      · next ho =>
          split at h
          · next hq =>
              cases h
              exact .stop pool hd (by simpa using ho) hq
          · cases h
  · next message hd =>
      cases h
      exact goes_givesUp hd
  · next hd =>
      cases h
      exact .depart hd
  · next pool hd =>
      split at h
      · next ho =>
          cases h
          exact goes_expires (.inl ⟨pool, hd⟩) ho
      · cases h
  · next message hd =>
      split at h
      · next ho =>
          cases h
          exact goes_expires (.inr ⟨message, hd⟩) ho
      · cases h
  · split at h
    · next ho =>
        cases h
        exact .cancel ho
    · cases h
  · cases h

end RunState

/-! ## 2. The dispatch fits the run -/

/-- The dispatch has not begun. -/
def Dispatch.isEarly : Dispatch → Bool
  | .idle | .called => true
  | _ => false

/-- The dispatch has begun, and there is no pool. -/
def Dispatch.isBare : Dispatch → Bool
  | .begun | .broken _ | .leaving | .ended => true
  | _ => false

/-- A run is not running before its dispatch begins, and not pending afterwards; and the pool fits. -/
structure Dispatch.Fits (d : Dispatch) (run : Run) : Prop where
  early : d.isEarly = true → run.status ≠ .running
  late : d.isEarly = false → run.status ≠ .pending
  pool : ∀ p, d = .active p → p.Fits run

namespace Dispatch

variable {d : Dispatch} {run : Run}

/-- Without a pool there is nothing to see to but the status. -/
theorem Fits.bare (hd : d.isBare = true) (hs : run.status ≠ .pending) : d.Fits run := by
  cases d with
  | idle | called | active => cases hd
  | begun | broken | leaving | ended => exact ⟨nofun, fun _ => hs, nofun⟩

theorem Fits.active {p : Pool} (hp : p.Fits run) (hs : run.status ≠ .pending) :
    (Dispatch.active p).Fits run :=
  ⟨nofun, fun _ => hs, fun q h => by cases h; exact hp⟩

theorem Fits.terminal_or_running (h : d.Fits run) (hd : d.isEarly = false) :
    run.status.isTerminal = true ∨ run.status = .running := by
  cases hs : run.status with
  | pending => exact absurd hs (h.late hd)
  | running => exact .inr rfl
  | completed | failed | cancelled => exact .inl rfl

theorem Fits.running (h : d.Fits run) (hd : d.isEarly = false) (ho : run.isOpen = true) :
    run.status = .running := by
  exact (h.terminal_or_running hd).resolve_left (Run.not_isTerminal ho)

/-- A run that ends keeps its dispatch. -/
theorem Fits.of_terminal {run' : Run} (h : d.Fits run) (ht : run'.testCases = run.testCases)
    (hs : run'.status.isTerminal = true) : d.Fits run' := by
  refine ⟨fun _ e => ?_, fun _ e => ?_, fun p hp => (h.pool p hp).of_terminal ht hs⟩ <;>
  · rw [e] at hs
    cases hs

end Dispatch

namespace RunState

variable {st : RunState} {now : Instant} {o : Occasion} {t : Change}

/-- **Every change keeps the dispatch in step with the run**, also where its save breaks. -/
theorem fits_of_goes (h : st.Goes now o t) (hf : st.dispatch.Fits st.run) :
    t.next.dispatch.Fits t.next.run ∧ ∀ fault, (t.ifBroken fault).Fits t.next.run := by
  have hlate {d : Dispatch} (hd : st.dispatch = d) (h : d.isEarly = false) :
      st.run.status ≠ .pending := hf.late (by rw [hd, h])
  cases h with
  | launch hd =>
      have hr : st.run.status ≠ .running := hf.early (by rw [hd]; rfl)
      have : Dispatch.called.Fits st.run := ⟨fun _ => hr, nofun, nofun⟩
      exact ⟨this, fun _ => this⟩
  | begin hd hs =>
      have hr : (st.run.started now).status ≠ .pending := nofun
      exact ⟨.bare rfl hr, fun _ => .bare rfl hr⟩
  | beginLate hd hs => exact ⟨.bare rfl hs, fun _ => .bare rfl hs⟩
  | openPool slots deadline lines hd hl =>
      have := Dispatch.Fits.active (Pool.fits_new slots deadline) (hlate hd rfl)
      exact ⟨this, fun _ => this⟩
  | openNone _ _ _ hd _ | openNever _ hd _ | stop _ hd _ _ | giveUpLate _ hd _ | depart hd =>
      have hs := hlate hd rfl
      exact ⟨.bare rfl hs, fun _ => .bare rfl hs⟩
  | fill p hd ho =>
      have := Dispatch.Fits.active (hf.pool p hd).filled (hlate hd rfl)
      exact ⟨this, fun _ => this⟩
  | handIn p c caseId outcome hd hc =>
      have hp := (hf.pool p hd).withEnd (x := outcome.handedIn now) (List.mem_of_find?_eq_some hc)
      have := Dispatch.Fits.active hp (hlate hd rfl)
      exact ⟨this, fun _ => this⟩
  | record p c caseId r hd hc ha =>
      have hid : c.id = caseId := by simpa using List.find?_some hc
      have hp : (p.without caseId).Fits (st.run.recorded c.id r) :=
        (hf.pool p hd).without rfl fun k hk => hid ▸ Run.awaits_recorded hk
      have hs : (st.run.recorded c.id r).status ≠ .pending := hlate hd rfl
      exact ⟨.active hp hs, fun _ => .bare rfl hs⟩
  | drop p c caseId x lines hd hc ha hn =>
      have hid : c.id = caseId := by simpa using List.find?_some hc
      have hp : (p.without caseId).Fits st.run := (hf.pool p hd).without rfl fun k hk =>
        ⟨hk, fun e => by rw [e, ← hid, ha] at hk; cases hk⟩
      have := Dispatch.Fits.active hp (hlate hd rfl)
      exact ⟨this, fun _ => this⟩
  | noSession p c caseId message hd hc ho =>
      have hs : (st.run.failed ("Browser provisioning failed: " ++ message) now).status ≠ .pending :=
        nofun
      exact ⟨.bare rfl hs, fun _ => .bare rfl hs⟩
  | complete p hd ho he =>
      have hs : (st.run.ended .completed now).status ≠ .pending := nofun
      exact ⟨.bare rfl hs, fun _ => .bare rfl hs⟩
  | giveUp message hd ho =>
      have hs : (st.run.failed ("Dispatcher error: " ++ message) now).status ≠ .pending := nofun
      exact ⟨.bare rfl hs, fun _ => .bare rfl hs⟩
  | expire | cancel => exact ⟨hf.of_terminal rfl rfl, fun _ => hf.of_terminal rfl rfl⟩

end RunState

/-! ## 3. The run itself -/

namespace RunState

variable {st : RunState} {now : Instant} {o : Occasion} {t : Change}

/-- **What a change makes of the run**, and the news of it. -/
theorem turns_of_goes (h : st.Goes now o t) (hf : st.dispatch.Fits st.run) :
    st.run.Turns now t.next.run t.news := by
  have running {d : Dispatch} (hd : st.dispatch = d) (h : d.isEarly = false)
      (ho : st.run.isOpen = true) : st.run.status = .running := hf.running (by rw [hd, h]) ho
  cases h with
  | launch | beginLate | openPool | openNone | openNever | fill | handIn | drop | stop | giveUpLate
  | depart => exact .stays
  | begin hd hs => exact .starts hs
  | record p c caseId r hd hc ha =>
      refine .records c r ((hf.pool p hd).cases c ?_) ha
      exact Pool.mem_cases.mpr (.inr (.inr ⟨_, List.mem_of_find?_eq_some hc⟩))
  | noSession p c caseId message hd hc ho => exact .fails _ (running hd rfl ho)
  | complete p hd ho he =>
      have hr := running hd rfl ho
      refine .completes hr fun c hc => ?_
      cases ha : st.run.awaits c.id with
      | false => rfl
      | true =>
          obtain ⟨e, hm, -⟩ := (hf.pool p hd).awaited c hc ha
          exact absurd hm (Pool.not_mem_of_isEmpty he)
  | giveUp message hd ho => exact .fails _ (running hd rfl ho)
  | expire hd ho =>
      rcases hd with ⟨p, hd⟩ | ⟨message, hd⟩
      · exact .fails _ (running hd rfl ho)
      · exact .fails _ (running hd rfl ho)
  | cancel ho => exact .cancels ho

theorem id_of_goes (h : st.Goes now o t) : t.next.run.id = st.run.id := by
  cases h <;> rfl

theorem done_of_goes (h : st.Goes now o t) : t.next.done = st.done := by
  cases h <;> rfl

/-! ## 4. Runs at rest, and stranded runs -/

/-- The run has ended, or its dispatch has. -/
def AtRest (st : RunState) : Prop := st.run.status.isTerminal = true ∨ st.dispatch = .ended

/-- The run is running, and its dispatch is over. -/
def Stranded (st : RunState) : Prop :=
  st.run.status = .running ∧ (st.dispatch = .leaving ∨ st.dispatch = .ended)

/-- A run at rest that has not ended is stranded. -/
theorem stranded_of_atRest (hf : st.dispatch.Fits st.run) (hr : st.AtRest)
    (ho : st.run.isOpen = true) : st.Stranded := by
  have hend : st.dispatch = .ended := hr.resolve_left (Run.not_isTerminal ho)
  exact ⟨hf.running (by rw [hend]; rfl) ho, .inr hend⟩

variable {s : Supervisor}

/-- **A run at rest stays so.** -/
theorem atRest_of_goes (h : st.Goes now o t) (hf : st.dispatch.Fits st.run) (hr : st.AtRest) :
    (s.outcome t).AtRest := by
  unfold AtRest
  rw [Supervisor.run_outcome]
  rcases hr with hs | hd
  · rw [((turns_of_goes h hf).of_terminal hs).1]
    exact .inl hs
  · refine .inl ?_
    cases h with
    | cancel ho => rfl
    | launch hd' | begin hd' | beginLate hd' | openPool _ _ _ hd' | openNone _ _ _ hd'
    | openNever _ hd' | fill _ hd' | handIn _ _ _ _ hd' | record _ _ _ _ hd' | drop _ _ _ _ _ hd'
    | noSession _ _ _ _ hd' | complete _ hd' | stop _ hd' | giveUp _ hd' | giveUpLate _ hd'
    | depart hd' =>
        rw [hd] at hd'
        cases hd'
    | expire hd' =>
        rw [hd] at hd'
        rcases hd' with ⟨p, hd'⟩ | ⟨message, hd'⟩ <;> cases hd'

/-- **A run that is put to rest is at rest.** -/
theorem atRest_of_leaves (h : st.Goes now o t) (hl : t.leaves = true) : (s.outcome t).AtRest := by
  unfold AtRest
  rw [Supervisor.run_outcome]
  cases h with
  | depart hd =>
      refine .inr ?_
      rcases Supervisor.dispatch_outcome (s := s)
        (t := { next := { st with dispatch := .ended }, leaves := true }) with e | ⟨_, _, e⟩
      · exact e
      · exact e
  | cancel ho => exact .inl rfl
  | launch | begin | beginLate | openPool | openNone | openNever | fill | handIn | record | drop
  | noSession | complete | stop | giveUp | giveUpLate | expire => cases hl

/-- **What strands a run**: its start cannot be saved, or there is no moment for its time limit. It stays
    stranded until it is cancelled. -/
theorem stranded_of_goes (h : st.Goes now o t) (hf : st.dispatch.Fits st.run) :
    (s.outcome t).Stranded ↔ st.Stranded ∧ o ≠ .cancel ∨
      o = .begin ∧ (s.keep t).1.isSome = true ∨
      o = .openPool ∧ st.run.isOpen = true ∧ st.run.config.timeLimit.deadline? now = none := by
  unfold Stranded
  rw [Supervisor.run_outcome]
  have hfault := @Supervisor.dispatch_outcome_of_fault s t
  have hnone := Supervisor.dispatch_outcome_of_no_fault (s := s) (t := t)
  cases h with
  | begin hd hs =>
      cases hk : (s.keep _).1 with
      | none =>
          rw [hnone hk]
          simp [hd]
      | some fault =>
          rw [hfault hk]
          simp [Run.started]
  | beginLate hd hs =>
      have hr : st.run.status ≠ .running := hf.early (by rw [hd]; rfl)
      simp [hr, hd, Supervisor.keep]
  | openNever lines hd hl =>
      rw [Supervisor.dispatch_outcome_of_eq fun _ => rfl]
      have hr : st.run.status = .running ↔ st.run.isOpen = true :=
        ⟨Run.isOpen_of_running, hf.running (by rw [hd]; rfl)⟩
      simp [hd, hl, hr]
  | openPool _ _ _ hd hl | openNone _ _ _ hd hl =>
      rw [Supervisor.dispatch_outcome_of_eq fun _ => rfl]
      simp [hd, hl]
  | record p c caseId r hd hc ha =>
      cases hk : (s.keep _).1 with
      | none =>
          rw [hnone hk]
          simp [hd]
      | some fault =>
          rw [hfault hk]
          simp [hd]
  | launch hd | fill _ hd _ | handIn _ _ _ _ hd _ | drop _ _ _ _ _ hd _ _ _ | depart hd =>
      rw [Supervisor.dispatch_outcome_of_eq fun _ => rfl]
      simp [hd]
  | stop _ hd ho _ | giveUpLate _ hd ho =>
      have hr : st.run.status ≠ .running := fun h => by simp [Run.isOpen_of_running h] at ho
      simp [hd, hr]
  | noSession p c caseId message hd hc ho => simp [hd, ends, Run.failed, Run.ended]
  | complete p hd ho he => simp [hd, completes, ends, Run.ended]
  | giveUp message hd ho => simp [hd, ends, Run.failed, Run.ended]
  | expire hd ho =>
      rcases hd with ⟨p, hd⟩ | ⟨message, hd⟩ <;> simp [hd, ends, Run.failed, Run.ended]
  | cancel ho => simp [isCancelled, ends, Run.ended]

end RunState

end StepRunner
