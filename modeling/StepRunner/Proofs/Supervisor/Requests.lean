import StepRunner.Proofs.Supervisor.Retirement

/-!
# Requests and histories

Whatever a supervisor is asked, and however it is answered, its state afterwards is the end of a history:
what holds after every history holds after every request.

* `Supervisor.Reaches`: one state comes after another in some history;
* `reaches_register`, `reaches_start`, `reaches_cancel` and the rest: one lemma for each request, also
  where it is refused;
* `launch_of_accepts`, `launch_of_state?`, `launch_of_not_accepts`: how a request to start a run ends, and which
  history it is.
-/

namespace StepRunner.Supervisor

variable {s s' s'' : Supervisor} {run : Run} {st : RunState} {id k : String}

/-! ## 1. Every request is a history -/

/-- One state comes after another in some history. -/
def Reaches (s s' : Supervisor) : Prop := ∃ h, s.after h = s'

theorem Reaches.refl (s : Supervisor) : s.Reaches s := ⟨[], rfl⟩

theorem Reaches.trans (h : s.Reaches s') (h' : s'.Reaches s'') : s.Reaches s'' := by
  obtain ⟨h₁, rfl⟩ := h
  obtain ⟨h₂, rfl⟩ := h'
  exact ⟨h₁ ++ h₂, after_append s h₁ h₂⟩

theorem reaches_perform (s : Supervisor) (m : Move) : s.Reaches (s.perform m) := ⟨[m], rfl⟩

theorem reaches_occur (s : Supervisor) (id : String) (o : Occasion) : s.Reaches (s.occur id o) :=
  reaches_perform s (.occur id o)

theorem reaches_register (s : Supervisor) (run : Run) : s.Reaches (s.register run).2 :=
  reaches_perform s (.register run)

theorem reaches_subscribe (s : Supervisor) (id : String) : s.Reaches (s.subscribe id).2 :=
  reaches_perform s (.subscribe id)

theorem reaches_elapse (s : Supervisor) (micros : Nat) : s.Reaches (s.elapse micros) :=
  reaches_perform s (.clock _)

/-- Everything that goes on by itself goes on occasion by occasion. -/
theorem settle_eq_after (s : Supervisor) (id : String) : s.settle id = s.after (course.map (.occur id)) := rfl

theorem reaches_settle (s : Supervisor) (id : String) : s.Reaches (s.settle id) := ⟨_, (settle_eq_after s id).symm⟩

theorem reaches_endCase (s : Supervisor) (id caseId : String) (outcome : CaseOutcome) :
    s.Reaches (s.endCase id caseId outcome) :=
  ((reaches_occur s id _).trans (reaches_occur _ id _)).trans (reaches_settle _ id)

theorem reaches_timeUp (s : Supervisor) (id : String) : s.Reaches (s.timeUp id) :=
  (reaches_occur s id .expire).trans (reaches_settle _ id)

theorem reaches_launchKnown (s : Supervisor) (id : String) : s.Reaches (s.launchKnown id).2 := by
  unfold launchKnown
  split
  · exact .refl s
  · split
    · exact reaches_occur s id .launch
    · exact .refl s

theorem reaches_launch (s : Supervisor) (run : Run) : s.Reaches (s.launch run).2 := by
  unfold launch
  split
  · exact reaches_launchKnown s run.id
  · have h := reaches_register s run
    split
    · next e =>
        rw [e] at h
        exact h
    · next e =>
        rw [e] at h
        exact h.trans (reaches_launchKnown _ run.id)

theorem reaches_start (s : Supervisor) (run : Run) : s.Reaches (s.start run).2 := by
  have e : (s.start run).2 = (s.launch run).2.settle run.id := rfl
  rw [e]
  exact (reaches_launch s run).trans (reaches_settle _ run.id)

theorem reaches_revoke (s : Supervisor) (id : String) : s.Reaches (s.revoke id).2 := by
  rw [revoke_snd]
  exact reaches_perform s _

theorem reaches_cancel (s : Supervisor) (id : String) : s.Reaches (s.cancel id).2 := by
  have e : (s.cancel id).2 = (s.revoke id).2.settle id := rfl
  rw [e]
  exact (reaches_revoke s id).trans (reaches_settle _ id)

theorem reaches_cancelAll (s : Supervisor) (ids : List String) : s.Reaches (s.cancelAll ids).2 := by
  induction ids generalizing s with
  | nil => exact .refl s
  | cons id rest ih =>
      have h := reaches_cancel s id
      unfold cancelAll
      split
      · next e =>
          rw [e] at h
          exact h
      · next e =>
          rw [e] at h
          exact h.trans (ih _)

theorem reaches_shutDown (s : Supervisor) : s.Reaches s.shutDown.2 := reaches_cancelAll s _

/-! ## 2. Starting a run -/

/-- A run is taken over, and its dispatch is asked for. -/
def launching (run : Run) : List Move := [.register run, .occur run.id .launch]

theorem launchKnown_of_state? (hst : s.state? id = some st) : s.launchKnown id =
    if st.dispatch = .idle then (.ok (), s.perform (.occur id .launch)) else (.error (.alreadyStarted id), s) := by
  unfold launchKnown
  rw [hst]
  rfl

/-- A run in memory is started unless it was before. -/
theorem launch_of_state? (hst : s.state? run.id = some st) : s.launch run =
    if st.dispatch = .idle then (.ok (), s.perform (.occur run.id .launch))
    else (.error (.alreadyStarted run.id), s) := by
  unfold launch
  rw [hst, Option.isSome_some, if_pos rfl, launchKnown_of_state? hst]

/-- A run that is accepted is started, unless its first save breaks. -/
theorem launch_of_accepts (ha : s.accepts run = true) (hb : ¬ s.Breaks (.register run)) :
    s.launch run = (.ok (), s.after (launching run)) := by
  have hn := (not_knows_of_accepts ha).2
  have hst : (s.register run).2.state? run.id = some { run } := state?_of_accepts ha
  have hok : (s.register run).1 = .ok () := by
    have hsaved : (s.persist run).1 = none :=
      Option.not_isSome_iff_eq_none.mp fun h => hb ⟨run, if_pos ha, h⟩
    have haccepts := ha
    simp only [accepts, Bool.and_eq_true, beq_iff_eq, Bool.not_eq_true'] at haccepts
    rw [register_fst, if_neg (by simp [haccepts.1]), if_neg (by simp [haccepts.2]), hsaved]
  have e : s.after (launching run) = (s.register run).2.perform (.occur run.id .launch) := rfl
  unfold launch
  rw [hn, Option.isSome_none, if_neg Bool.false_ne_true, e]
  generalize s.register run = answer at hok hst ⊢
  obtain ⟨result, s'⟩ := answer
  cases hok
  dsimp only
  rw [launchKnown_of_state? hst, if_pos rfl]

/-- A pending run that is neither in memory nor accepted is refused, and nothing changes. -/
theorem launch_of_not_accepts (hp : run.status = .pending) (hn : s.state? run.id = none)
    (ha : s.accepts run = false) : s.launch run = (.error (.alreadyRegistered run.id), s) := by
  have hknown : s.knows run.id = true := by simpa [accepts, hp] using ha
  have hr : s.register run = (.error (.alreadyRegistered run.id), s) := by
    unfold register
    rw [if_neg (by simp [hp]), if_pos hknown]
  unfold launch
  rw [hn, Option.isSome_none, if_neg Bool.false_ne_true, hr]

/-- **A run that is started** is in memory then, and the request was these two moves. -/
theorem launch_eq_after (hp : run.status = .pending) (hb : ¬ s.Breaks (.register run))
    (h : (s.launch run).1 = .ok ()) : (s.launch run).2 = s.after (launching run) ∧
      ∃ st, (s.after (launching run)).state? run.id = some st := by
  have hlaunched {s : Supervisor} {st : RunState} (hst : s.state? run.id = some st) :
      ∃ st', (s.perform (.occur run.id .launch)).state? run.id = some st' := by
    cases hst' : (s.perform (.occur run.id .launch)).state? run.id with
    | some st' => exact ⟨st', rfl⟩
    | none =>
        -- a run that leaves memory is put to rest, and a launch does not do so
        obtain ⟨id, o, t, e, hc, -, hl, -⟩ := departs_of_left hst hst'
        cases e
        obtain ⟨st₀, -, hg⟩ := change?_eq_some hc
        cases hg
        cases hl
  cases hst : s.state? run.id with
  | some st =>
      have hsame : s.perform (.register run) = s := by
        refine register_of_not_accepts (Bool.eq_false_iff.mpr fun ha => ?_)
        rw [(not_knows_of_accepts ha).2] at hst
        cases hst
      rw [launching, after_cons, hsame, after_cons, after_nil]
      rw [launch_of_state? hst] at h ⊢
      split at h
      · next hidle => exact ⟨by rw [if_pos hidle], hlaunched hst⟩
      · cases h
  | none =>
      cases ha : s.accepts run with
      | true =>
          rw [launch_of_accepts ha hb]
          exact ⟨rfl, hlaunched (state?_of_accepts ha)⟩
      | false =>
          rw [launch_of_not_accepts hp hst ha] at h
          cases h

/-- Where runs at rest stay in memory, a run does not leave it by what happens to itself. -/
theorem state?_of_retention (hr : 0 < s.retention) (hst : s.state? id = some st) (os : List Occasion) :
    ∃ st', (s.after (os.map (.occur id))).state? id = some st' := by
  induction os generalizing s st with
  | nil => exact ⟨st, hst⟩
  | cons o os ih =>
      cases hst' : (s.perform (.occur id o)).state? id with
      | some st' =>
          refine ih ?_ hst'
          rwa [retention, (frame_perform s (.occur id o)).1]
      | none =>
          obtain ⟨id, o, t, e, -, -, -, hd⟩ := departs_of_left hst hst'
          cases e
          exact absurd hd (not_mem_departing_self hr)

/-- What goes on with runs in memory takes none over. -/
theorem along_takesOver_occur (s : Supervisor) (id : String) (os : List Occasion) :
    s.along takesOver (os.map (.occur id)) = [] := by
  induction os generalizing s with
  | nil => rfl
  | cons o os ih => exact ih _

/-- Where nothing goes on with a run by itself, it has settled. -/
theorem settle_of_quiet (h : ∀ o ∈ course, s.change? id o = none) : s.settle id = s := by
  unfold settle
  revert h
  generalize course = os
  intro h
  induction os with
  | nil => rfl
  | cons o os ih =>
      have e : s.occur id o = s := perform_of_none (h o List.mem_cons_self)
      rw [List.foldl_cons, e]
      exact ih fun o ho => h o (List.mem_cons_of_mem _ ho)

end StepRunner.Supervisor
