import Mathlib.Logic.Relation
import StepRunner.CommandLine.Session
import StepRunner.Proofs.Broadcast.Delivery
import StepRunner.Proofs.Case.Verdict
import StepRunner.Proofs.Store.Beside
import StepRunner.Proofs.Supervisor.Saves
import StepRunner.Proofs.Writable

/-!
# Sessions of a command

`Session.Leads` is any way in which a session can go on: the cases of its run end in whatever order and
with whatever outcome, the time limit is reached, the run is cancelled, the clock goes on, events are
printed. `leads_runCases` says that the cases one after the other are one of these ways.

`Attended` is what a session keeps along every way: the run of the command is the only one in memory, its
counts are right, and its folder holds its snapshot as it is at the moment. `attended_of_registered` says
that a run begins so, `Attended.attends` that no step changes it.
-/

namespace StepRunner.CommandLine

open Files Json Store

variable {σ : Type} {s s' : Supervisor} {id : String} {n : Nat} {o : Occasion} {root : Path}
  {run origin : Run} {t : Tree}

/-! ## 1. Ways -/

/-- What can happen to a supervisor while a command attends to a run and its stream. -/
inductive Attends (id : String) (n : Nat) (s : Supervisor) : Supervisor → Prop where
  | occurs (o : Occasion) (ho : o.Brief) : Attends id n s (s.occur id o)
  | clock (now : Instant) : Attends id n s { s with now }
  | tells (lines : List JournalLine) : Attends id n s (s.tell lines)
  | takes : Attends id n s { s with broadcaster := (s.broadcaster.drain n).2 }

/-- A session can go on like this. -/
structure Session.Leads (s s' : Session σ) : Prop where
  runId : s'.runId = s.runId
  stream : s'.stream = s.stream
  way : Relation.ReflTransGen (Attends s.runId s.stream) s.supervisor s'.supervisor

theorem Session.Leads.refl (s : Session σ) : s.Leads s := ⟨rfl, rfl, .refl⟩

/-- Only the supervisor matters, where the run and its stream stay. -/
theorem Session.leads_of_way {s : Session σ} {s' : Supervisor} {browser : σ} {trace : List Call}
    {printed : List String} {events : Nat} {interruptAfter : Option Nat}
    (h : Relation.ReflTransGen (Attends s.runId s.stream) s.supervisor s') :
    s.Leads { supervisor := s', runId := s.runId, stream := s.stream, browser, trace, printed, events
              interruptAfter } := ⟨rfl, rfl, h⟩

theorem Session.Leads.trans {s s' s'' : Session σ} (h : s.Leads s') (h' : s'.Leads s'') :
    s.Leads s'' := by
  refine ⟨h'.runId.trans h.runId, h'.stream.trans h.stream, h.way.trans ?_⟩
  have hway := h'.way
  rwa [h.runId, h.stream] at hway

/-! ## 2. Cases one after the other -/

theorem attends_occur (o : Occasion) (ho : o.Brief) :
    Relation.ReflTransGen (Attends id n) s (s.occur id o) := .single (.occurs o ho)

theorem attends_settle (s : Supervisor) : Relation.ReflTransGen (Attends id n) s (s.settle id) := by
  have hcourse (os : List Occasion) (hos : ∀ o ∈ os, o.Brief) (s : Supervisor) :
      Relation.ReflTransGen (Attends id n) s (os.foldl (fun s o => s.occur id o) s) := by
    induction os generalizing s with
    | nil => exact .refl
    | cons o os ih =>
        exact (attends_occur o (hos o List.mem_cons_self)).trans
          (ih (fun o ho => hos o (List.mem_cons_of_mem _ ho)) _)
  refine hcourse Supervisor.course (fun o ho => ?_) s
  simp only [Supervisor.course, List.mem_cons, List.not_mem_nil, or_false] at ho
  rcases ho with rfl | rfl | rfl | rfl | rfl | rfl <;> trivial

theorem attends_endCase {caseId : String} {outcome : CaseOutcome}
    (h : (Occasion.handIn caseId outcome).Brief) (s : Supervisor) :
    Relation.ReflTransGen (Attends id n) s (s.endCase id caseId outcome) :=
  ((attends_occur _ h).trans (attends_occur (.collect caseId) trivial)).trans (attends_settle _)

theorem attends_cancel (s : Supervisor) :
    Relation.ReflTransGen (Attends id n) s (s.cancel id).2 := by
  have hrevoke : Relation.ReflTransGen (Attends id n) s (s.revoke id).2 := by
    rw [Supervisor.revoke_snd]
    exact attends_occur .cancel trivial
  unfold Supervisor.cancel
  cases hr : s.revoke id with
  | mk r s' =>
      rw [hr] at hrevoke
      exact hrevoke.trans (attends_settle _)

/-- A case that has a result took the time between two moments. -/
theorem brief_outcomeOf (e : Executor) (b : Browser σ) (c : TestCase) (d : Drive σ) (caseId : String) :
    (Occasion.handIn caseId (Session.outcomeOf ((runCase e b c).run d).1)).Brief := by
  cases hrun : (runCase e b c).run d with
  | mk r d' =>
      cases r with
      | error f => cases f <;> trivial
      | ok r =>
          rw [runCase, run_runCaseBy] at hrun
          obtain ⟨v, d₁, -, hresult⟩ := run_bind_eq_ok.mp hrun
          rw [run_bind_get] at hresult
          cases hresult
          exact isTooLong_millisecondsSince _ _

namespace Session

theorem leads_takeEvents (s : Session σ) : s.Leads s.takeEvents.2 := ⟨rfl, rfl, .single .takes⟩

theorem supervisor_printEvents (s : Session σ) (events : List Event) :
    (s.printEvents events).1.supervisor = s.supervisor ∧
      (s.printEvents events).1.runId = s.runId ∧ (s.printEvents events).1.stream = s.stream := by
  induction events generalizing s with
  | nil => exact ⟨rfl, rfl, rfl⟩
  | cons e events ih =>
      unfold printEvents
      dsimp only
      split <;> exact ih _

theorem leads_printEvents (s : Session σ) (events : List Event) : s.Leads (s.printEvents events).1 := by
  obtain ⟨hs, hid, hn⟩ := s.supervisor_printEvents events
  exact ⟨hid, hn, hs ▸ .refl⟩

theorem leads_printNew (s : Session σ) : s.Leads s.printNew := by
  have hfirst := s.leads_takeEvents.trans (s.takeEvents.2.leads_printEvents s.takeEvents.1)
  unfold printNew
  dsimp only
  split
  · refine hfirst.trans ?_
    generalize (s.takeEvents.2.printEvents s.takeEvents.1).1 = s₁
    have hcancel : s₁.Leads { s₁ with supervisor := (s₁.supervisor.cancel s₁.runId).2 } :=
      leads_of_way (attends_cancel s₁.supervisor)
    exact (hcancel.trans (leads_takeEvents _)).trans (leads_printEvents _ _)
  · exact hfirst

theorem leads_runCase (e : Executor) (b : Browser σ) (s : Session σ) (c : TestCase) :
    s.Leads (s.runCase e b c) := by
  have hbrief := brief_outcomeOf e b c
    { browser := s.browser, now := s.supervisor.now
      cancelled := (s.run?.map (!·.isOpen)).getD true } c.id
  unfold runCase
  dsimp only
  generalize (StepRunner.runCase e b c).run _ = x at hbrief ⊢
  have htime : Relation.ReflTransGen (Attends s.runId s.stream) s.supervisor
      { s.supervisor with now := x.2.now, journal := s.supervisor.journal ++ x.2.journal } :=
    .trans (.single (.clock x.2.now)) (.single (.tells x.2.journal))
  exact leads_of_way (htime.trans (attends_endCase hbrief _))

/-- **The cases one after the other** are a way on. -/
theorem leads_runCases (e : Executor) (b : Browser σ) (s : Session σ) (run : Run) :
    s.Leads (s.runCases e b run) := by
  have hfrom (fuel : Nat) (s : Session σ) : s.Leads (runCasesFrom e b fuel s) := by
    induction fuel generalizing s with
    | zero => exact .refl s
    | succ fuel ih =>
        unfold runCasesFrom
        split
        · exact .refl s
        · next c _ => exact ((leads_runCase e b s c).trans (leads_printNew _)).trans (ih _)
  exact (leads_printNew s).trans (hfrom _ _)

end Session

/-! ## 3. What a session keeps -/

/-- A run as the session keeps it: its counts are right, it can be written, and its folder holds it. -/
structure Kept (root : Path) (origin : Run) (store : Store) (st : RunState) : Prop where
  brief : st.Brief
  aggregate : st.run.Aggregate
  cases : st.run.testCases = origin.testCases
  config : st.run.config = origin.config
  writable : isWritable st.run = true
  shown : ∃ t, store = .folder root t ∧ Shows root t st.run

/-- The run of a command is the only one in memory, and is kept. -/
structure Attended (root : Path) (origin : Run) (s : Supervisor) : Prop where
  sound : s.Sound
  alone : ∀ k, k ≠ origin.id → s.state? k = none
  retains : 1 ≤ s.retention
  faultless : ∀ k, s.archive.faultAt k = none
  held : ∃ st, s.state? origin.id = some st ∧ Kept root origin s.archive.store st

/-- Only the runs and the archive count. -/
theorem Attended.congr (h : Attended root origin s) (hs : s'.Sound) (hruns : s'.runs = s.runs)
    (harchive : s'.archive = s.archive) (hsettings : s'.settings = s.settings) :
    Attended root origin s' := by
  have hstate (k : String) : s'.state? k = s.state? k := by
    unfold Supervisor.state?
    rw [hruns]
  refine ⟨hs, fun k hk => (hstate k).trans (h.alone k hk), ?_, by rw [harchive]; exact h.faultless, ?_⟩
  · unfold Supervisor.retention
    rw [hsettings]
    exact h.retains
  · rw [hstate, harchive]
    exact h.held

/-- The run is not put out of memory: there is no other, and one may stay. -/
theorem Attended.departing_eq_nil (h : Attended root origin s) : s.departing origin.id = [] := by
  unfold Supervisor.departing
  split
  · rfl
  · next hqueue =>
      have hnone : s.retired = [] := by
        refine List.eq_nil_iff_forall_not_mem.mpr fun k hk => ?_
        obtain ⟨st, hst, -⟩ := h.sound.retired k hk
        obtain rfl : k = origin.id := by
          by_contra hne
          rw [h.alone k hne] at hst
          cases hst
        exact hqueue (by simp [hk])
      rw [hnone, List.nil_append, List.length_singleton, Nat.sub_eq_zero_of_le h.retains]
      rfl

/-! ## 4. Saves -/

/-- A save that no fault stops is one of the store. -/
theorem save_of_faultless {a : Archive} (hf : ∀ k, a.faultAt k = none) (run : Run) :
    (a.save run).1 = (a.store.save run).1 ∧ (a.save run).2.store = (a.store.save run).2 ∧
      ∀ k, (a.save run).2.faultAt k = none := by
  unfold Archive.save
  dsimp only
  rw [hf]
  exact ⟨rfl, rfl, hf⟩

/-- Where there is room, a run is saved if it can be written, and breaks the save otherwise. -/
theorem persist_of_room (hf : ∀ k, s.archive.faultAt k = none) (hstore : s.archive.store = .folder root t)
    (hroom : Room root t run.id) : (s.persist run).1 =
      if isWritable run then none else some (@SaveFault.badName Json.tooLongMessage) := by
  have hsave : (s.archive.save run).1 =
      if isWritable run then .ok () else .error (@SaveFault.badName Json.tooLongMessage) := by
    rw [(save_of_faultless hf run).1, hstore]
    exact hroom.saveTo_fst
  unfold Supervisor.persist
  cases hx : s.archive.save run with
  | mk r archive =>
      rw [hx] at hsave
      obtain rfl : r = _ := hsave
      cases isWritable run <;> rfl

/-- Then its folder holds it. -/
theorem shown_of_room (hf : ∀ k, s.archive.faultAt k = none) (hstore : s.archive.store = .folder root t)
    (hroom : Room root t run.id) (hw : isWritable run = true) :
    ∃ t', (s.archive.save run).2.store = .folder root t' ∧ Shows root t' run := by
  refine ⟨_, ?_, hroom.shows_saveTo hw⟩
  rw [(save_of_faultless hf run).2.1, hstore]
  rfl

/-! ## 5. Along a way -/

/-- **A change of the run** leaves it as the session keeps it. -/
theorem Attended.occur (h : Attended root origin s) (o : Occasion) (ho : o.Brief) :
    Attended root origin (s.occur origin.id o) := by
  unfold Supervisor.occur
  cases hc : s.change? origin.id o with
  | none => exact h
  | some c =>
      obtain ⟨st, hst, hkept⟩ := h.held
      obtain ⟨st', hst', hg⟩ := Supervisor.change?_eq_some hc
      obtain rfl : st' = st := Option.some.inj (hst'.symm.trans hst)
      obtain ⟨t, hstore, hshows⟩ := hkept.shown
      have hid : c.next.run.id = st'.run.id := RunState.id_of_goes hg
      have hturns := RunState.turns_of_goes hg (h.sound.fits _ _ hst)
      have hwritable := hturns.isWritable hkept.aggregate hkept.writable
        (RunState.result_of_goes_of_brief hg hkept.brief)
      have hroom : Room root t c.next.run.id := hid ▸ hshows.room
      -- the save does not break, so the change goes through
      have hkeep : (s.keep c).1 = none := by
        unfold Supervisor.keep
        split
        · rw [persist_of_room h.faultless hstore hroom, if_pos hwritable]
        · rfl
      have hstate (k : String) := Supervisor.state?_take_of_change? (k := k) hc
      have harchive := Supervisor.archive_take s c
      refine ⟨h.sound.take hc, fun k hk => ?_, ?_, fun k => ?_, s.outcome c, ?_, ?_⟩
      · rw [hstate, h.departing_eq_nil, if_neg (by simp), if_neg hk, h.alone k hk]
      · unfold Supervisor.retention
        rw [(Supervisor.frame_take s c).1]
        exact h.retains
      · rw [harchive]
        split
        · exact (save_of_faultless h.faultless _).2.2 k
        · exact h.faultless k
      · rw [hstate, h.departing_eq_nil, if_neg (by simp), if_pos rfl]
      · refine ⟨?_, ?_, ?_, ?_, ?_, ?_⟩
        · intro p hp
          rw [Supervisor.dispatch_outcome_of_no_fault hkeep] at hp
          exact RunState.brief_of_goes hg ho hkept.brief p hp
        all_goals rw [Supervisor.run_outcome]
        · exact hturns.aggregate hkept.aggregate
        · exact hturns.testCases_eq.trans hkept.cases
        · exact hturns.config_eq.trans hkept.config
        · exact hwritable
        · rw [harchive]
          split
          · exact shown_of_room h.faultless hstore hroom hwritable
          · next hsaved =>
              have heq : c.next.run = st'.run := by
                by_contra hne
                exact hsaved (Supervisor.saved_of_ne hg hne)
              exact ⟨t, hstore, heq ▸ hshows⟩

/-- No step changes what the session keeps. -/
theorem Attended.attends (h : Attended root origin s) (hstep : Attends origin.id n s s') :
    Attended root origin s' := by
  cases hstep with
  | occurs o ho => exact h.occur o ho
  | clock now => exact h.congr (Supervisor.sound_perform h.sound (.clock now)) rfl rfl rfl
  | tells lines => exact h.congr ⟨h.sound.fits, h.sound.done, h.sound.nodup, h.sound.retired,
      h.sound.broadcaster⟩ rfl rfl rfl
  | takes => exact h.congr (h.sound.broadcast h.sound.broadcaster.drain) rfl rfl rfl

/-- **Along every way** the session keeps it. -/
theorem Attended.leads (h : Attended root origin s)
    (hway : Relation.ReflTransGen (Attends origin.id n) s s') : Attended root origin s' := by
  induction hway with
  | refl => exact h
  | tail _ hstep ih => exact ih.attends hstep

/-! ## 6. The beginning -/

/-- What taking over a run comes down to, where it is not refused. -/
theorem accepts_of_register (h : (s.register run).1 = .ok ()) : s.accepts run = true ∧
    ({ s with runs := s.runs ++ [{ run }] : Supervisor }.persist run).1 = none := by
  unfold Supervisor.register at h
  split at h
  · cases h
  · next hpending =>
      split at h
      · cases h
      · next hknown =>
          split at h
          · cases h
          · next hpersist =>
              refine ⟨?_, by rw [hpersist]⟩
              unfold Supervisor.accepts
              simp_all

/-- **A run that has just been made** is kept once it is registered. -/
theorem attended_of_registered {settings : Settings} {now : Instant} (ha : run.Aggregate)
    (hretains : 1 ≤ settings.retainedRuns) (hroom : Room root t run.id)
    (hs : s = { settings, archive := { store := .folder root t }, now })
    (h : (s.register run).1 = .ok ()) : Attended root run (s.register run).2 := by
  subst hs
  obtain ⟨haccepts, hpersist⟩ := accepts_of_register h
  have hw : isWritable run = true := by
    rw [persist_of_room (fun _ => rfl) rfl hroom] at hpersist
    by_contra hw
    rw [if_neg hw] at hpersist
    cases hpersist
  have harchive := Supervisor.archive_register haccepts
  have hstate := Supervisor.state?_of_accepts haccepts
  obtain ⟨archive, journal, hregister⟩ := Supervisor.register_of_accepts haccepts
  refine ⟨(Supervisor.sound_new _ _ _).register run, fun k hk => ?_, ?_, fun k => ?_, _, hstate, ?_⟩
  · rw [hregister]
    refine (Supervisor.state?_append _ run).trans ?_
    rw [if_neg hk.symm, Option.or_none]
    rfl
  · rw [hregister]
    unfold Supervisor.retention
    dsimp only
    omega
  · rw [harchive]
    exact (save_of_faultless (fun _ => rfl) run).2.2 k
  · refine ⟨nofun, ha, rfl, rfl, hw, ?_⟩
    rw [harchive]
    exact shown_of_room (fun _ => rfl) rfl hroom hw

end StepRunner.CommandLine
