import StepRunner.Http.Api
import StepRunner.Proofs.Store.Contents
import StepRunner.Proofs.Supervisor.Retention

/-!
# Three requests about one run

A run is shown, cancelled, and observed under its id. `Service.Agrees` says how the three answers should go
together; `Service.answers_agree_iff` says what they are, and exactly when they do.

They do not where a run is stored as one that has not ended and is in memory no more (`Supervisor.Stale`):
it is shown as going on, and cannot be cancelled. This is how an earlier process leaves a run, and how
eviction does whose last save failed. Nor do they where the save of the cancelled run breaks
(`Supervisor.Obstructed`), and where a run that was never saved leaves memory meanwhile
(`Supervisor.Forgotten`).
-/

namespace StepRunner

/-- The snapshot of a run has its status. -/
theorem Run.status_of_toJson_eq {run run' : Run} (h : run.toJson = run'.toJson) :
    run.status = run'.status := by
  have hnames : some run.status.name = some run'.status.name :=
    congrArg (fun j : Json => (j.getD "status").asString?) h
  have hstatus := congrArg RunStatus.ofName? (Option.some.inj hnames)
  rwa [RunStatus.ofName?_name, RunStatus.ofName?_name, Option.some_inj] at hstatus

namespace Supervisor

variable {s : Supervisor} {id : String} {st : RunState} {run : Run} {o : Occasion} {t : Change}

/-! ## 1. What goes on with a run that has ended -/

/-- An occasion for a run that has ended, or is not in memory, saves nothing, and leaves the run as it is
    if it leaves it in memory. -/
theorem closed_perform (hs : s.Sound)
    (ht : ∀ run, s.run? id = some run → run.status.isTerminal = true) (o : Occasion) :
    (s.perform (.occur id o)).archive = s.archive ∧
      ((s.perform (.occur id o)).run? id = s.run? id ∨ (s.perform (.occur id o)).run? id = none) := by
  constructor
  · rw [archive_perform]
    cases hh : s.handsOver (.occur id o) with
    | none => rfl
    | some run =>
        rcases handsOver_cases hh with ⟨e, -⟩ | ⟨o', st, t, e, hst, -, -, -, hopen⟩
        · cases e
        · cases e
          exact absurd (ht st.run (run?_of_state? hst)) (Run.not_isTerminal hopen)
  · cases hr' : (s.perform (.occur id o)).run? id with
    | none => exact .inr rfl
    | some run' =>
        cases hr : s.run? id with
        | none =>
            obtain ⟨e, -⟩ := registered_of_none hr hr'
            cases e
        | some run =>
            obtain ⟨news, hturn⟩ := turns_of_held hs hr hr'
            exact .inl (by rw [(hturn.of_terminal (ht run hr)).1])

/-- The same of all that goes on with it by itself. -/
theorem closed_settle (hs : s.Sound)
    (ht : ∀ run, s.run? id = some run → run.status.isTerminal = true) :
    (s.settle id).archive = s.archive ∧
      ((s.settle id).run? id = s.run? id ∨ (s.settle id).run? id = none) := by
  unfold settle
  generalize course = os
  induction os generalizing s with
  | nil => exact ⟨rfl, .inl rfl⟩
  | cons o os ih =>
      obtain ⟨harchive, hr⟩ := closed_perform hs ht o
      have ht' : ∀ run, (s.perform (.occur id o)).run? id = some run → run.status.isTerminal = true := by
        intro run hrun
        rcases hr with e | e
        · exact ht run (e ▸ hrun)
        · rw [e] at hrun
          cases hrun
      obtain ⟨harchive', hr'⟩ := ih (sound_perform hs (.occur id o)) ht'
      refine ⟨harchive'.trans harchive, ?_⟩
      rcases hr' with e | e
      · rcases hr with e' | e'
        · exact .inl (e.trans e')
        · exact .inr (e.trans e')
      · exact .inr e

/-! ## 2. How a run stands towards a request to cancel it -/

/-- The run is in memory and has not ended. -/
def HeldOpen (s : Supervisor) (id : String) : Prop := ∃ run, s.run? id = some run ∧ run.isOpen = true

/-- What is known of the run is that it has ended. -/
def Over (s : Supervisor) (id : String) : Prop :=
  ∃ run : Run, s.snapshot? id = some run.toJson ∧ run.status.isTerminal = true

/-- The run is known from the store alone, where it has not ended. -/
def Stale (s : Supervisor) (id : String) : Prop :=
  s.run? id = none ∧ ∃ run : Run, s.archive.snapshot? id = some run.toJson ∧ run.isOpen = true

/-- The save of the cancelled run breaks, or the run was never dispatched and there can be no queue for
    eviction. -/
def Obstructed (s : Supervisor) (id : String) : Prop :=
  s.Breaks (.occur id .cancel) ∨ s.canRetain = false ∧
    ∃ st, s.state? id = some st ∧ st.run.status = .pending ∧ st.dispatch = .idle

/-- The run has ended, was never saved, and leaves memory in what goes on by itself. -/
def Forgotten (s : Supervisor) (id : String) : Prop :=
  (∃ run, s.run? id = some run ∧ run.status.isTerminal = true) ∧
    s.archive.snapshot? id = none ∧ (s.settle id).run? id = none

theorem heldOpen_of_obstructed (h : s.Obstructed id) : s.HeldOpen id := by
  rcases h with ⟨run, hh, -⟩ | ⟨-, st, hst, hs, -⟩
  · rcases handsOver_cases hh with ⟨e, -⟩ | ⟨o, st, t, e, hst, -, -, -, hopen⟩
    · cases e
    · cases e
      exact ⟨st.run, run?_of_state? hst, hopen⟩
  · exact ⟨st.run, run?_of_state? hst, Run.isOpen_of_pending hs⟩

/-- **A run in memory that has not ended** is cancelled, unless something is in the way. -/
theorem cancel_of_heldOpen (h : s.HeldOpen id) :
    (s.Obstructed id → ∃ refusal, (s.cancel id).1 = .error refusal) ∧
      (¬ s.Obstructed id → (s.cancel id).1 = .ok true) := by
  obtain ⟨run, hr, hopen⟩ := h
  obtain ⟨st, hst, rfl⟩ := run?_eq_some.mp hr
  have hc := change?_cancel_of_isOpen hst hopen
  have hanswer : (s.cancel id).1 = (s.revoke id).1 := rfl
  rw [hanswer, revoke_fst, hc]
  have hbreaks := breaks_of_change? hc
  have hleaves : (st.isCancelled s.now).leaves = true ↔ st.run.status = .pending ∧ st.dispatch = .idle :=
    decide_eq_true_iff
  unfold Obstructed
  rw [hbreaks]
  dsimp only
  cases hk : (s.keep (st.isCancelled s.now)).1 with
  | some fault => exact ⟨fun _ => ⟨_, rfl⟩, fun hnot => absurd (.inl rfl) hnot⟩
  | none =>
      dsimp only
      cases hl : (st.isCancelled s.now).leaves with
      | false =>
          refine ⟨fun hobs => ?_, fun _ => rfl⟩
          obtain h | ⟨-, st', hst', hs⟩ := hobs
          · cases h
          · rw [hst] at hst'
            cases hst'
            rw [hleaves.mpr hs] at hl
            cases hl
      | true =>
          cases hretain : s.canRetain with
          | true => exact ⟨fun hobs => by simp at hobs, fun _ => rfl⟩
          | false => exact ⟨fun _ => ⟨_, rfl⟩, fun hnot => absurd (.inr ⟨rfl, st, hst, hleaves.mp hl⟩) hnot⟩

/-- Of a run that has ended, or is not in memory, there is nothing to cancel. -/
theorem cancel_of_not_heldOpen (h : ¬ s.HeldOpen id) : s.cancel id = (.ok false, s.settle id) := by
  have hc : s.change? id .cancel = none := by
    cases hc : s.change? id .cancel with
    | none => rfl
    | some t =>
        obtain ⟨st, hst, hopen, -⟩ := change?_cancel hc
        exact absurd ⟨st.run, run?_of_state? hst, hopen⟩ h
  unfold cancel revoke
  rw [hc]

theorem terminal_of_not_heldOpen (h : ¬ s.HeldOpen id) :
    ∀ run, s.run? id = some run → run.status.isTerminal = true := by
  intro run hr
  by_contra hn
  exact h ⟨run, hr, Run.isOpen_iff.mpr (Bool.eq_false_iff.mpr hn)⟩

theorem snapshot?_of_run? (hr : s.run? id = some run) : s.snapshot? id = some run.toJson := by
  unfold snapshot?
  rw [hr]

theorem snapshot?_of_run?_eq_none (hr : s.run? id = none) : s.snapshot? id = s.archive.snapshot? id := by
  unfold snapshot?
  rw [hr]

/-- **What is known after a request to cancel** that found nothing to cancel: as much as before, or what
    the store has of it. -/
theorem snapshot?_settle (hs : s.Sound) (h : ¬ s.HeldOpen id) :
    ((s.settle id).snapshot? id = none ↔ s.snapshot? id = none ∨ s.Forgotten id) ∧
      ∀ j, (s.settle id).snapshot? id = some j → s.snapshot? id = some j ∨ s.archive.snapshot? id = some j := by
  have ht := terminal_of_not_heldOpen h
  obtain ⟨harchive, hrun⟩ := closed_settle hs ht
  cases hr : s.run? id with
  | none =>
      rw [hr, or_self] at hrun
      have e : (s.settle id).snapshot? id = s.snapshot? id := by
        rw [snapshot?_of_run?_eq_none hrun, snapshot?_of_run?_eq_none hr, harchive]
      rw [e]
      refine ⟨⟨.inl, fun hor => hor.elim (fun hn => hn) ?_⟩, fun j => .inl⟩
      rintro ⟨⟨run, hr', -⟩, -⟩
      rw [hr] at hr'
      cases hr'
  | some run =>
      have hknown := snapshot?_of_run? hr
      rw [hknown]
      rcases hrun with e | e
      · rw [hr] at e
        rw [snapshot?_of_run? e]
        refine ⟨⟨nofun, fun hor => ?_⟩, fun j => .inl⟩
        obtain hn | ⟨-, -, hgone⟩ := hor
        · cases hn
        · rw [e] at hgone
          cases hgone
      · rw [snapshot?_of_run?_eq_none e, harchive]
        refine ⟨⟨fun hn => .inr ⟨⟨run, hr, ht run hr⟩, hn, e⟩, fun hor => ?_⟩, fun j => .inr⟩
        obtain hn | ⟨-, hn, -⟩ := hor
        · cases hn
        · exact hn

end Supervisor

namespace Http

/-! ## 3. Answers -/

/-- The number of an answer's status. -/
def Answer.status : Answer → Nat
  | .json status _ => status
  | .stream _ => 200
  | .page status => status

/-- What an answer says about whether the run has ended. -/
def Answer.terminal? : Answer → Option Bool
  | .json _ body => match (body.getD "meta").get? "terminal" with
    | some (.bool b) => some b
    | _ => none
  | _ => none

/-- The snapshot of a run is answered with the flag of its status. -/
theorem ofSnapshot_toJson (run : Run) : ofSnapshot run.toJson =
    .ok (success run.toJson (.obj [("terminal", .bool run.status.isTerminal)])) := by
  have hstatus : statusOf (.str run.status.name) = .ok run.status := by
    have hname : (Json.str run.status.name).asString?.bind RunStatus.ofName? = some run.status :=
      RunStatus.ofName?_name _
    rw [statusOf, hname]
  show (statusOf (.str run.status.name)).bind _ = _
  rw [hstatus]
  rfl

namespace Service

variable {s : Service} {id : String} {r : Request} {route : Route}

/-- A request by the method of its route is answered by what the route is about. -/
theorem answer_of_found (h : r.destination = .found route) (hm : r.method = route.method) :
    s.answer r = s.follow r route := by
  have hmethod : route.method = "GET" ∨ route.method = "POST" := by
    cases route with
    | runs | cancel => exact .inr rfl
    | health | run | stream | asset => exact .inl rfl
  unfold answer
  rw [h, hm]
  rcases hmethod with e | e <;> rw [e] <;> rfl

/-- A run is shown as far as it is known. -/
theorem showRun_cases (hf : ∀ j, s.supervisor.snapshot? id = some j → ∃ run : Run, j = run.toJson) :
    s.supervisor.snapshot? id = none ∧ (s.showRun id).status = 404 ∨
      ∃ run : Run, s.supervisor.snapshot? id = some run.toJson ∧ (s.showRun id).status = 200 ∧
        (s.showRun id).terminal? = some run.status.isTerminal := by
  unfold showRun
  cases hj : s.supervisor.snapshot? id with
  | none => exact .inl ⟨rfl, rfl⟩
  | some j =>
      obtain ⟨run, rfl⟩ := hf j hj
      refine .inr ⟨run, rfl, ?_⟩
      dsimp only
      rw [ofSnapshot_toJson]
      exact ⟨rfl, rfl⟩

/-- A stream is opened on a run that is known. -/
theorem status_openStream (hf : ∀ j, s.supervisor.snapshot? id = some j → ∃ run : Run, j = run.toJson)
    (ha : s.authorize (token? r) id = true) :
    (s.openStream r id).1.status = if (s.supervisor.snapshot? id).isSome then 200 else 404 := by
  unfold openStream
  rw [if_pos ha]
  cases hr : s.supervisor.run? id with
  | some run =>
      rw [Supervisor.snapshot?_of_run? hr]
      unfold Supervisor.subscribe
      rw [hr]
      rfl
  | none =>
      have hn := Supervisor.run?_eq_none.mp hr
      have e := Supervisor.snapshot?_of_run?_eq_none hr
      rw [Supervisor.subscribe_of_none hn, ← e]
      cases hj : s.supervisor.snapshot? id with
      | none => rfl
      | some j =>
          obtain ⟨run, rfl⟩ := hf j hj
          dsimp only
          rw [Supervisor.storedProgress_toJson]
          rfl

/-- **A request to cancel** is answered by what there is to cancel, and by what is known of the run
    afterwards. -/
theorem status_cancelRun (hs : s.supervisor.Sound)
    (hf : ∀ j, s.supervisor.snapshot? id = some j → ∃ run : Run, j = run.toJson)
    (hstored : ∀ j, s.supervisor.archive.snapshot? id = some j → ∃ run : Run, j = run.toJson) :
    (s.supervisor.HeldOpen id → s.supervisor.Obstructed id → (s.cancelRun id).1.status = 500) ∧
    (s.supervisor.HeldOpen id → ¬ s.supervisor.Obstructed id → (s.cancelRun id).1.status = 200) ∧
    (¬ s.supervisor.HeldOpen id → (s.cancelRun id).1.status =
      if (s.supervisor.settle id).snapshot? id = none then 404 else 409) := by
  unfold cancelRun
  refine ⟨fun ho hobs => ?_, fun ho hfree => ?_, fun hn => ?_⟩
  · obtain ⟨refusal, e⟩ := (Supervisor.cancel_of_heldOpen ho).1 hobs
    generalize s.supervisor.cancel id = answer at e
    obtain ⟨a, supervisor⟩ := answer
    cases e
    rfl
  · have e := (Supervisor.cancel_of_heldOpen ho).2 hfree
    generalize s.supervisor.cancel id = answer at e
    obtain ⟨a, supervisor⟩ := answer
    cases e
    rfl
  · rw [Supervisor.cancel_of_not_heldOpen hn]
    dsimp only
    unfold notCancelled
    dsimp only
    cases hj : (s.supervisor.settle id).snapshot? id with
    | none => rfl
    | some j =>
        obtain ⟨run, rfl⟩ : ∃ run : Run, j = run.toJson :=
          ((Supervisor.snapshot?_settle hs hn).2 j hj).elim (hf j) (hstored j)
        rfl

/-! ## 4. How the answers go together -/

/-- Three requests about a run: to show it, to cancel it, and to observe it by one who may. -/
structure Asks (s : Service) (id : String) (shown cancelled streamed : Request) : Prop where
  toShow : shown.destination = .found (.run id) ∧ shown.method = "GET"
  toCancel : cancelled.destination = .found (.cancel id) ∧ cancelled.method = "POST"
  toObserve : streamed.destination = .found (.stream id) ∧ streamed.method = "GET"
  authorized : s.authorize (token? streamed) id = true

/-- How the answers to three such requests should go together: all say that there is no such run, or none
    does; a run is cancelled exactly if it is known and has not ended, and refused only if it has; and it
    is shown as ended exactly if it would not be cancelled. -/
@[mk_iff]
structure Agrees (s : Service) (id : String) (shown cancelled streamed : Answer) : Prop where
  unknownToCancel : cancelled.status = 404 ↔ shown.status = 404
  unknownToObserve : streamed.status = 404 ↔ shown.status = 404
  granted : cancelled.status = 200 ↔
    (s.supervisor.snapshot? id).isSome = true ∧ ¬ s.supervisor.Over id
  refused : cancelled.status = 409 → s.supervisor.Over id
  flagged : shown.status = 200 → (shown.terminal? = some true ↔ cancelled.status ≠ 200)

theorem over_iff {s : Supervisor} {run : Run} (h : s.snapshot? id = some run.toJson) :
    s.Over id ↔ run.status.isTerminal = true := by
  constructor
  · rintro ⟨run', h', ht⟩
    rw [h] at h'
    rw [Run.status_of_toJson_eq (Option.some.inj h')]
    exact ht
  · exact fun ht => ⟨run, h, ht⟩

/-- A run that is known, and neither in memory as one that has not ended nor stale, has ended. -/
theorem over_iff_of_not_heldOpen {s : Supervisor} {run : Run} (h : s.snapshot? id = some run.toJson)
    (hn : ¬ s.HeldOpen id) : s.Over id ↔ ¬ s.Stale id := by
  rw [over_iff h]
  cases hr : s.run? id with
  | some run' =>
      have ht := Supervisor.terminal_of_not_heldOpen hn run' hr
      rw [Supervisor.snapshot?_of_run? hr] at h
      rw [Run.status_of_toJson_eq (Option.some.inj h)] at ht
      refine iff_of_true ht fun hstale => ?_
      rw [hstale.1] at hr
      cases hr
  | none =>
      rw [Supervisor.snapshot?_of_run?_eq_none hr] at h
      constructor
      · rintro ht ⟨-, run', h', hopen⟩
        rw [h] at h'
        rw [Run.status_of_toJson_eq (Option.some.inj h')] at ht
        exact Run.not_isTerminal hopen ht
      · intro hfresh
        by_contra ht
        exact hfresh ⟨hr, run, h, Run.isOpen_iff.mpr (Bool.eq_false_iff.mpr ht)⟩

/-- The snapshot of a run that is known is shown with a flag that says whether it is over. -/
theorem shown_cases (hf : ∀ j, s.supervisor.snapshot? id = some j → ∃ run : Run, j = run.toJson)
    (hr : r.destination = .found (.run id) ∧ r.method = "GET") :
    s.supervisor.snapshot? id = none ∧ (s.answer r).1.status = 404 ∨
      ∃ run : Run, s.supervisor.snapshot? id = some run.toJson ∧ (s.answer r).1.status = 200 ∧
        ((s.answer r).1.terminal? = some true ↔ s.supervisor.Over id) := by
  rw [answer_of_found hr.1 hr.2]
  rcases showRun_cases hf with h | ⟨run, hrun, hstatus, hflag⟩
  · exact .inl h
  · refine .inr ⟨run, hrun, hstatus, ?_⟩
    show (s.showRun id).terminal? = some true ↔ _
    rw [hflag, over_iff hrun, Option.some_inj]

/-- A run in memory that has not ended is known, and neither over, nor stale, nor forgotten. -/
theorem standing_of_heldOpen {s : Supervisor} (h : s.HeldOpen id) : (s.snapshot? id).isSome = true ∧
    ¬ s.Over id ∧ ¬ s.Stale id ∧ ¬ s.Forgotten id := by
  obtain ⟨run, hr, hopen⟩ := h
  have hj := Supervisor.snapshot?_of_run? hr
  refine ⟨by rw [hj]; rfl, ?_, fun hstale => ?_, ?_⟩
  · rw [over_iff hj]
    exact Run.not_isTerminal hopen
  · rw [hstale.1] at hr
    cases hr
  · rintro ⟨⟨run', hr', ht⟩, -⟩
    rw [hr] at hr'
    cases hr'
    exact Run.not_isTerminal hopen ht

/-- A run that is not known is neither stale nor forgotten. -/
theorem standing_of_unknown {s : Supervisor} (h : s.snapshot? id = none) :
    ¬ s.Stale id ∧ ¬ s.Forgotten id := by
  constructor
  · rintro ⟨hr, run, hj, -⟩
    rw [← Supervisor.snapshot?_of_run?_eq_none hr, h] at hj
    cases hj
  · rintro ⟨⟨run, hr, -⟩, -⟩
    rw [Supervisor.snapshot?_of_run? hr] at h
    cases h

/-- **The three answers**, and when they go together. A run is shown, and its stream opened, as far as it is
    known. A request to cancel it is granted if it is in memory and has not ended, and nothing is in the
    way; it fails where something is; there is no such run if none is known, or none is any more; and it is
    refused otherwise. So the answers go together unless the run is stale, something is in the way, or it
    is forgotten. -/
theorem answers_agree_iff (settings : Settings) (archive : Archive) (now : Instant) (h : List Move)
    (s : Service) (id : String) (shown cancelled streamed : Request)
    (hs : s.supervisor = (Supervisor.new settings archive now).after h)
    (hf : archive.store.Filled) (hp : ∀ run ∈ Move.registered h, run.config.Proper)
    (hr : s.Asks id shown cancelled streamed) :
    ((s.answer shown).1.status = if (s.supervisor.snapshot? id).isSome then 200 else 404) ∧
    ((s.answer streamed).1.status = if (s.supervisor.snapshot? id).isSome then 200 else 404) ∧
    ((s.supervisor.snapshot? id).isSome = true →
      ((s.answer shown).1.terminal? = some true ↔ s.supervisor.Over id)) ∧
    ((s.answer cancelled).1.status = 200 ↔ s.supervisor.HeldOpen id ∧ ¬ s.supervisor.Obstructed id) ∧
    ((s.answer cancelled).1.status = 500 ↔ s.supervisor.Obstructed id) ∧
    ((s.answer cancelled).1.status = 404 ↔
      s.supervisor.snapshot? id = none ∨ s.supervisor.Forgotten id) ∧
    ((s.answer cancelled).1.status = 409 ↔ (s.supervisor.snapshot? id).isSome = true ∧
      ¬ s.supervisor.HeldOpen id ∧ ¬ s.supervisor.Forgotten id) ∧
    (s.Agrees id (s.answer shown).1 (s.answer cancelled).1 (s.answer streamed).1 ↔
      ¬ s.supervisor.Stale id ∧ ¬ s.supervisor.Obstructed id ∧ ¬ s.supervisor.Forgotten id) := by
  have hsound : s.supervisor.Sound := by
    rw [hs]
    exact Supervisor.sound_after (Supervisor.sound_new settings archive now) h
  have hstored : ∀ j, s.supervisor.archive.snapshot? id = some j → ∃ run : Run, j = run.toJson := by
    rw [hs]
    exact fun j => Store.exists_of_snapshot? (Supervisor.filled_after settings archive now hf hp)
  have hknown : ∀ j, s.supervisor.snapshot? id = some j → ∃ run : Run, j = run.toJson := by
    intro j hj
    cases hrun : s.supervisor.run? id with
    | none => exact hstored j (Supervisor.snapshot?_of_run?_eq_none hrun ▸ hj)
    | some run =>
        rw [Supervisor.snapshot?_of_run? hrun] at hj
        exact ⟨run, (Option.some.inj hj).symm⟩
  have hstreamed : (s.answer streamed).1.status =
      if (s.supervisor.snapshot? id).isSome then 200 else 404 := by
    rw [answer_of_found hr.toObserve.1 hr.toObserve.2]
    exact status_openStream hknown hr.authorized
  have hcancelled : (s.answer cancelled).1 = (s.cancelRun id).1 := by
    rw [answer_of_found hr.toCancel.1 hr.toCancel.2]
    rfl
  have hshown := shown_cases hknown hr.toShow
  obtain ⟨hobstructed, hgranted, hleft⟩ := status_cancelRun hsound hknown hstored
  rw [← hcancelled] at hobstructed hgranted hleft
  rw [agrees_iff, hstreamed]
  by_cases ho : s.supervisor.HeldOpen id
  · obtain ⟨hsome, hover, hstale, hforgotten⟩ := standing_of_heldOpen ho
    obtain ⟨hn, -⟩ | ⟨run, hj, hstatus, hflag⟩ := hshown
    · rw [hn] at hsome
      cases hsome
    · by_cases hobs : s.supervisor.Obstructed id
      · simp [hj, hstatus, hflag, hover, hstale, hforgotten, hobs, ho, hobstructed ho hobs]
      · simp [hj, hstatus, hflag, hover, hstale, hforgotten, hobs, ho, hgranted ho hobs]
  · have hobs : ¬ s.supervisor.Obstructed id := fun hobs => ho (Supervisor.heldOpen_of_obstructed hobs)
    have hcancel := hleft ho
    have hgone := (Supervisor.snapshot?_settle hsound ho).1
    obtain ⟨hn, hstatus⟩ | ⟨run, hj, hstatus, hflag⟩ := hshown
    · obtain ⟨hstale, hforgotten⟩ := standing_of_unknown hn
      rw [if_pos (hgone.mpr (.inl hn))] at hcancel
      simp [hn, hstatus, hstale, hforgotten, hobs, ho, hcancel]
    · have hover := over_iff_of_not_heldOpen hj ho
      by_cases hforgotten : s.supervisor.Forgotten id
      · rw [if_pos (hgone.mpr (.inr hforgotten))] at hcancel
        simp [hj, hstatus, hflag, hforgotten, hobs, ho, hcancel]
      · rw [if_neg fun e => (hgone.mp e).elim (fun hn => by rw [hj] at hn; cases hn) hforgotten] at hcancel
        simp [hj, hstatus, hflag, hover, hforgotten, hobs, ho, hcancel]

/-- A service on the store of a supervisor that left a run under way. -/
def afterRestart : Service where
  supervisor := Supervisor.new {}
    ((Sample.supervisor 1 fun _ => none).after (Sample.passing 1000 |>.take 4)).archive ⟨0⟩

/-- A request about the run that was left. -/
def aboutRun (method target : String) : Request :=
  { method, target := "/api/runs/" ++ Sample.runId ++ target }

/-- A run that an earlier process left under way is shown as going on, and cannot be cancelled. -/
theorem disagree_of_left_running :
    (afterRestart.answer (aboutRun "GET" "")).1.status = 200 ∧
    (afterRestart.answer (aboutRun "GET" "")).1.terminal? ≠ some true ∧
    (afterRestart.answer (aboutRun "POST" "/cancel")).1.status = 409 ∧
    ¬ afterRestart.Agrees Sample.runId (afterRestart.answer (aboutRun "GET" "")).1
      (afterRestart.answer (aboutRun "POST" "/cancel")).1
      (afterRestart.answer (aboutRun "GET" "/stream")).1 := by
  have hfilled : ((Sample.supervisor 1 fun _ => none).after
      (Sample.passing 1000 |>.take 4)).archive.store.Filled :=
    Supervisor.filled_after _ _ _ (.blank rfl) (by
      intro run hrun
      obtain rfl := List.mem_singleton.mp hrun
      exact ⟨trivial, trivial, trivial, trivial⟩)
  have hasks : afterRestart.Asks Sample.runId (aboutRun "GET" "") (aboutRun "POST" "/cancel")
      (aboutRun "GET" "/stream") :=
    ⟨by decide +kernel, by decide +kernel, by decide +kernel, rfl⟩
  have hs : afterRestart.supervisor = (Supervisor.new {} ((Sample.supervisor 1 fun _ => none).after
      (Sample.passing 1000 |>.take 4)).archive ⟨0⟩).after [] := rfl
  have hnone : ∀ run ∈ Move.registered [], run.config.Proper := fun run hrun => by cases hrun
  have hanswers := answers_agree_iff {} _ ⟨0⟩ [] afterRestart Sample.runId _ _ _ hs hfilled hnone hasks
  obtain ⟨hshown, -, hflag, -, -, -, hrefused, hagrees⟩ := hanswers
  have hstored : afterRestart.supervisor.archive.snapshot? Sample.runId =
      some ((Sample.run 1000).started ⟨0⟩).toJson := rfl
  have hr : afterRestart.supervisor.run? Sample.runId = none := rfl
  have hknown : afterRestart.supervisor.snapshot? Sample.runId =
      some ((Sample.run 1000).started ⟨0⟩).toJson :=
    (Supervisor.snapshot?_of_run?_eq_none hr).trans hstored
  have hstale : afterRestart.supervisor.Stale Sample.runId := ⟨hr, _, hstored, rfl⟩
  rw [hknown] at hshown hflag hrefused
  have hover : ¬ afterRestart.supervisor.Over Sample.runId := by
    rw [over_iff hknown]
    decide
  have hheld : ¬ afterRestart.supervisor.HeldOpen Sample.runId := by
    rintro ⟨run, hr', -⟩
    rw [hr] at hr'
    cases hr'
  have hforgotten : ¬ afterRestart.supervisor.Forgotten Sample.runId := by
    rintro ⟨⟨run, hr', -⟩, -⟩
    rw [hr] at hr'
    cases hr'
  exact ⟨hshown, fun e => hover ((hflag rfl).mp e), hrefused.mpr ⟨rfl, hheld, hforgotten⟩,
    fun h => (hagrees.mp h).1 hstale⟩

end Service

end Http

/-! ## 5. Where every save succeeds -/

namespace Supervisor

variable {s : Supervisor} {id : String} {h : List Move}

/-- A run becomes known by being registered. -/
theorem exists_registered (hs : s.Sound) (hk : s.Separates id h) (ho : s.archive.store.Orderly)
    (hn : s.snapshot? id = none) (hj : ((s.after h).snapshot? id).isSome = true) :
    ∃ past run future, h = past ++ .register run :: future ∧ run.id = id ∧
      (s.after past).accepts run = true := by
  induction h generalizing s with
  | nil =>
      rw [after_nil, hn] at hj
      cases hj
  | cons m h ih =>
      cases hm : (s.perform m).snapshot? id with
      | none =>
          obtain ⟨past, run, future, rfl, hid, ha⟩ :=
            ih (sound_perform hs m) (hk.perform hs) (orderly_perform ho m) hm hj
          exact ⟨m :: past, run, future, rfl, hid, ha⟩
      | some j =>
          have hnone : s.run? id = none := by
            cases hr : s.run? id with
            | none => rfl
            | some run =>
                rw [snapshot?_of_run? hr] at hn
                cases hn
          obtain ⟨run, hsaves, hid⟩ | ⟨run, hr⟩ : (∃ run, s.savedIn? m = some run ∧ run.id = id) ∨
              ∃ run, (s.perform m).run? id = some run := by
            by_contra hnot
            obtain ⟨hnot, hrun⟩ := not_or.mp hnot
            have hr := Option.eq_none_iff_forall_ne_some.mpr (not_exists.mp hrun)
            have hsame := snapshot?_perform ho (fun run hr => hk.handsOver hs hr)
              fun run hsaves hid => hnot ⟨run, hsaves, hid⟩
            rw [snapshot?_of_run?_eq_none hr, hsame, archive_of_snapshot?_eq_none hn] at hm
            cases hm
          · rcases handsOver_cases (savedIn?_eq_some.mp hsaves).1 with ⟨rfl, ha⟩ | ⟨o, st, t, -, hst, -⟩
            · exact ⟨[], run, h, rfl, hid, ha⟩
            · rw [hid] at hst
              rw [run?_of_state? hst] at hnone
              cases hnone
          · obtain ⟨rfl, -⟩ := registered_of_none hnone hr
            obtain ⟨st, hst, rfl⟩ := run?_eq_some.mp hr
            refine ⟨[], st.run, h, rfl, id_of_state? hst, ?_⟩
            by_contra ha
            have e : s.perform (.register st.run) = s :=
              register_of_not_accepts (Bool.eq_false_iff.mpr ha)
            rw [e, hnone] at hr
            cases hr

/-- **Where every save succeeds**, and there was no snapshot of a run before, the run is never forgotten;
    and it is stale only if it was left running under a time limit beyond the format. -/
theorem standing_of_saved (settings : Settings) (archive : Archive) (now : Instant) (h : List Move)
    (ho : archive.store.Orderly) (hn : archive.snapshot? id = none)
    (hk : ∀ r ∈ Move.registered h, archive.store.CanKeep r)
    (hsaved : (new settings archive now).AllSaved h) :
    ¬ ((new settings archive now).after h).Forgotten id ∧
      (((new settings archive now).after h).Stale id → ∃ last : Run,
        ((new settings archive now).after h).archive.snapshot? id = some last.toJson ∧
          last.status = .running ∧ last.config.timeLimit.IsBeyond) := by
  have hsep : (new settings archive now).Separates id h :=
    separates_new fun r hr => (hk r hr).separates id
  have hkept (hj : (((new settings archive now).after h).snapshot? id).isSome = true) :
      ∃ last : Run, ((new settings archive now).after h).archive.snapshot? id = some last.toJson ∧
        (((new settings archive now).after h).run? id = none →
          last.status.isTerminal = true ∨ last.status = .running ∧ last.config.timeLimit.IsBeyond) := by
    obtain ⟨past, run, future, rfl, rfl, ha⟩ :=
      exists_registered (sound_new settings archive now) hsep ho hn hj
    obtain ⟨last, -, hload, hmemory⟩ :=
      load_of_registered settings archive now past future run hk hsaved ha
    rw [after_append, after_cons]
    refine ⟨last, Archive.snapshot?_of_load hload, fun hr => ?_⟩
    rcases hmemory with hr' | ⟨-, hend⟩
    · rw [hr] at hr'
      cases hr'
    · exact hend
  constructor
  · rintro ⟨⟨run, hr, -⟩, hnone, -⟩
    obtain ⟨last, hj, -⟩ := hkept (by rw [snapshot?_of_run? hr]; rfl)
    rw [hnone] at hj
    cases hj
  · rintro ⟨hr, run, hj, hopen⟩
    obtain ⟨last, hlast, hend⟩ := hkept (by rw [snapshot?_of_run?_eq_none hr, hj]; rfl)
    refine ⟨last, hlast, (hend hr).resolve_left fun ht => ?_⟩
    rw [hj] at hlast
    rw [← Run.status_of_toJson_eq (Option.some.inj hlast)] at ht
    exact Run.not_isTerminal hopen ht

end Supervisor

end StepRunner
