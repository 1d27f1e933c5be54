import StepRunner.Proofs.Supervisor.Faults
import StepRunner.Proofs.Supervisor.Saves

/-!
# Snapshots

A snapshot of a run comes from memory as long as the run is there, and from the store afterwards.

* `Supervisor.Mirrored`: the store has every run in memory as it is. So it is where every save succeeds
  (`Mirrored.after`);
* `stored_as_held`: where every save succeeds, the store has every registered run as memory has it, or
  had it last; and a run that has left memory had ended then, unless its time limit is beyond the
  binary64 format;
* `snapshot_as_kept`: whichever saves fail, a run that has left memory is known by the last save of it
  that succeeded, if there was one and the store loads what is saved under the id. So what is reported
  of it then is what memory had only if the last save was that one; and the id of a run that was never
  saved, or is not loaded, is free again.
-/

namespace StepRunner.Supervisor

variable {s : Supervisor} {id k : String} {st st' : RunState} {run : Run} {m : Move} {h : List Move}

/-! ## 1. Where every save succeeds -/

/-- A run that is accepted, and saved, is loaded as it is. -/
theorem load_of_accepts (hk : s.archive.store.CanKeep run) (hm : s.Saves (.register run))
    (ha : s.accepts run = true) :
    (s.perform (.register run)).archive.store.load run.id = .ok (some run.toJson) :=
  load_of_savedIn? hk.canLoad (hk.separates run.id) (savedIn?_of_saves hm (if_pos ha))

/-- A run in memory after a move was just registered, or was there before, under the same id and with the
    same configuration. -/
theorem origin_of_state? (hs : s.Sound) (hst' : (s.perform m).state? k = some st') :
    m = .register st'.run ∧ st'.run.status = .pending ∨
      ∃ st, s.state? k = some st ∧ s.Became m k st' ∧ st'.run.id = st.run.id ∧
        st'.run.config = st.run.config := by
  cases hst : s.state? k with
  | none => exact .inl (registered_of_none (run?_eq_none.mpr hst) (run?_of_state? hst'))
  | some st =>
      have hb := became_of_state? hst'
      obtain ⟨news, hturn⟩ := turns_of_became hs hst hb
      exact .inr ⟨st, rfl, hb, hturn.id_eq, hturn.config_eq⟩

/-- The store has every run in memory as it is, and can keep it. -/
structure Mirrored (s : Supervisor) : Prop where
  sound : s.Sound
  stored : ∀ k st, s.state? k = some st → s.archive.store.load k = .ok (some st.run.toJson)
  keeps : ∀ k st, s.state? k = some st → s.archive.store.CanKeep st.run

theorem mirrored_new (settings : Settings) (archive : Archive) (now : Instant) :
    (new settings archive now).Mirrored where
  sound := sound_new settings archive now
  stored k st hst := by
    rw [state?_new] at hst
    cases hst
  keeps k st hst := by
    rw [state?_new] at hst
    cases hst

theorem Mirrored.separates (hs : s.Mirrored)
    (hk : ∀ run ∈ Move.registered h, s.archive.store.CanKeep run) : s.Separates id h := by
  refine ⟨fun k run hr => ?_, fun run hr => (hk run hr).separates id⟩
  obtain ⟨st, hst, rfl⟩ := run?_eq_some.mp hr
  exact (hs.keeps k st hst).separates id

/-- **A move whose save succeeds** keeps it so. -/
theorem Mirrored.perform (hs : s.Mirrored) (hk : ∀ run, m = .register run → s.archive.store.CanKeep run)
    (hm : s.Saves m) : (s.perform m).Mirrored := by
  refine ⟨sound_perform hs.sound m, fun k st' hst' => ?_, fun k st' hst' => ?_⟩
  · cases hst : s.state? k with
    | some st =>
        have hsep : s.Separates k [m] := hs.separates fun run hr =>
          hk run ((mem_registered_cons.mp hr).resolve_right List.not_mem_nil)
        exact load_of_became hs.sound hsep hm hst (became_of_state? hst') (hs.stored k st hst)
    | none =>
        obtain ⟨rfl, -⟩ := registered_of_none (run?_eq_none.mpr hst) (run?_of_state? hst')
        obtain rfl := id_of_state? hst'
        cases ha : s.accepts st'.run with
        | true => exact load_of_accepts (hk st'.run rfl) hm ha
        | false =>
            have e : s.perform (.register st'.run) = s := register_of_not_accepts ha
            rw [e, hst] at hst'
            cases hst'
  · rw [(store_perform s m).2.1]
    rcases origin_of_state? hs.sound hst' with ⟨e, -⟩ | ⟨st, hst, -, hid, hconfig⟩
    · exact hk st'.run e
    · exact (hs.keeps k st hst).congr hid hconfig

theorem Mirrored.after (hs : s.Mirrored) (hk : ∀ run ∈ Move.registered h, s.archive.store.CanKeep run)
    (hsaved : s.AllSaved h) : (s.after h).Mirrored := by
  induction h generalizing s with
  | nil => exact hs
  | cons m h ih =>
      refine ih (hs.perform (fun run e => hk run (mem_registered_cons.mpr (.inl e))) hsaved.1)
        (fun run hr => ?_) hsaved.2
      rw [(store_perform s m).2.1]
      exact hk run (mem_registered_cons.mpr (.inr hr))

/-- **What the store has of a run** is the last state of its stay in memory. -/
theorem load_of_stay (hs : s.Sound) (hk : s.Separates id h) (hsaved : s.AllSaved h)
    (hinv : ∀ st, s.state? id = some st → st.Stranded → st.run.config.timeLimit.IsBeyond)
    (hst : s.state? id = some st) (hload : s.archive.store.load id = .ok (some st.run.toJson)) :
    ∃ last, (s.stay id h).getLast? = some last ∧
      (s.after h).archive.store.load id = .ok (some last.toJson) ∧
      ((s.after h).run? id = some last ∨ (s.after h).run? id = none ∧
        (last.status.isTerminal = true ∨
          last.status = .running ∧ last.config.timeLimit.IsBeyond)) := by
  induction h generalizing s st with
  | nil =>
      have hr := run?_of_state? hst
      exact ⟨st.run, by rw [stay_nil hr]; rfl, hload, .inl hr⟩
  | cons m h ih =>
      obtain ⟨hm, hsaved⟩ := hsaved
      have hs' := sound_perform hs m
      have hk' := hk.perform hs
      obtain ⟨st', hb, hstay⟩ := stay_step hs hst m
      have hload' := load_of_became hs hk hm hst hb hload
      have hinv' {st'} (hb : s.Became m id st') :=
        isBeyond_of_became hs (not_breaks_of_saves hm) hinv hb
      rcases hstay with ⟨hst', e⟩ | ⟨hleft, hrest, -, e⟩
      · obtain ⟨last, hlast, hend⟩ :=
          ih hs' hk' hsaved (fun _ h => hinv' (became_of_state? h)) hst' hload'
        exact ⟨last, by rw [e, List.getLast?_cons, hlast]; rfl, hend⟩
      · -- the run has left memory, and nothing more is saved under its id
        have hnone := run?_eq_none.mpr hleft
        have hgone : ∀ run, (s.perform m).run? id = some run → run.status.isTerminal = true := by
          intro run hr
          rw [hnone] at hr
          cases hr
        obtain ⟨hnot, -, hr⟩ := over_after hs' hk' hgone (Archive.snapshot?_of_load hload')
        have hend := load_of_lastSaved?_eq_none hs' hk' hnot hload'
        refine ⟨st'.run, by rw [e]; rfl, hend, .inr ⟨?_, ?_⟩⟩
        · exact hr.elim (·.trans hnone) fun h => h
        · rw [or_iff_not_imp_left, Bool.not_eq_true, ← Run.isOpen_iff]
          intro ho
          have hstr := RunState.stranded_of_atRest (hs.fits_of_became hb) hrest ho
          exact ⟨hstr.1, hinv' hb hstr⟩

/-- What the store has of a registered run is the last state of its stay in memory, from the moment it
    is accepted. -/
theorem load_of_registered (settings : Settings) (archive : Archive) (now : Instant)
    (past future : List Move) (run : Run)
    (hk : ∀ r ∈ Move.registered (past ++ .register run :: future), archive.store.CanKeep r)
    (hsaved : (new settings archive now).AllSaved (past ++ .register run :: future))
    (ha : ((new settings archive now).after past).accepts run = true) :
    let s := ((new settings archive now).after past).perform (.register run)
    ∃ last, (s.stay run.id future).getLast? = some last ∧
      (s.after future).archive.store.load run.id = .ok (some last.toJson) ∧
      ((s.after future).run? run.id = some last ∨ (s.after future).run? run.id = none ∧
        (last.status.isTerminal = true ∨
          last.status = .running ∧ last.config.timeLimit.IsBeyond)) := by
  intro s
  have hnew := sound_new settings archive now
  have hs₀ := sound_after hnew past
  obtain ⟨hpast, hm, hfuture⟩ := allSaved_append.mp hsaved
  have hk₀ : ((new settings archive now).after past).Separates run.id (.register run :: future) :=
    Separates.after (separates_new fun r hr => (hk r hr).separates run.id) hnew
  have hrun : archive.store.CanKeep run := hk run <| by
    rw [registered_append]
    exact List.mem_append_right _ List.mem_cons_self
  have hst := state?_of_accepts ha
  have hinv : ∀ st, s.state? run.id = some st → st.Stranded →
      st.run.config.timeLimit.IsBeyond := by
    intro st hst' hstr
    rw [hst] at hst'
    cases hst'
    have hrun : run.status = .running := hstr.1
    rw [(not_knows_of_accepts ha).1] at hrun
    cases hrun
  exact load_of_stay (sound_perform hs₀ _) (hk₀.perform hs₀) hfuture hinv hst
    (load_of_accepts (((store_after _ past).2 run).mpr hrun) hm ha)

/-- **Memory and store agree**: where every save succeeds, the store has a registered run as memory has
    it, or as it was when it left memory; every terminal state it had in memory is that one. It had ended
    when it left memory, unless it was running under a time limit beyond the format. -/
theorem stored_as_held (settings : Settings) (archive : Archive) (now : Instant)
    (past future : List Move) (run : Run)
    (hk : ∀ r ∈ Move.registered (past ++ .register run :: future), archive.store.CanKeep r)
    (hsaved : (new settings archive now).AllSaved (past ++ .register run :: future))
    (ha : ((new settings archive now).after past).accepts run = true) :
    let s := ((new settings archive now).after past).perform (.register run)
    ∃ last, (s.stay run.id future).getLast? = some last ∧
      (s.after future).archive.store.load run.id = .ok (some last.toJson) ∧
      ((s.after future).run? run.id = some last ∨ (s.after future).run? run.id = none ∧
        (last.status.isTerminal = true ∨
          last.status = .running ∧ last.config.timeLimit.IsBeyond)) ∧
      ∀ r ∈ s.stay run.id future, r.status.isTerminal = true → r = last := by
  intro s
  have hs : s.Sound := sound_perform (sound_after (sound_new settings archive now) past) _
  obtain ⟨last, hlast, hload, hend⟩ :=
    load_of_registered settings archive now past future run hk hsaved ha
  refine ⟨last, hlast, hload, hend, fun r hr ht => ?_⟩
  obtain ⟨before, e⟩ := List.getLast?_eq_some_iff.mp hlast
  have hadv : (s.stay run.id future).Pairwise Run.Advances := pairwise_stay hs future
  rw [e] at hr hadv
  rcases List.mem_append.mp hr with hr | hr
  · exact (((List.pairwise_append.mp hadv).2.2 r hr last (List.mem_singleton_self last)).ended ht).1.symm
  · exact List.mem_singleton.mp hr

/-- A run that leaves memory as soon as it is at rest can still be shown. -/
example : ((Sample.supervisor 0 fun _ => none).after (Sample.passing 1000)).runs.length = 0 ∧
    (((Sample.supervisor 0 fun _ => none).after (Sample.passing 1000)).snapshot? Sample.runId).isSome := by
  decide +kernel

/-- A run whose case passes, and that leaves memory as soon as it is at rest. -/
theorem stored_as_held_passing :
    let s := (Sample.supervisor 0 fun _ => none).perform (.register (Sample.run 1000))
    let future := (Sample.passing 1000).tail
    (Sample.supervisor 0 fun _ => none).AllSaved (.register (Sample.run 1000) :: future) ∧
      ((s.after future).run? Sample.runId).isNone = true ∧
      ∃ last : Run, last.status = .completed ∧
        (s.after future).archive.store.load Sample.runId = .ok (some last.toJson) := by
  intro s future
  have hsaved : (Sample.supervisor 0 fun _ => none).AllSaved
      ([] ++ .register (Sample.run 1000) :: future) := by decide +kernel
  have hnone : ((s.after future).run? Sample.runId).isNone = true := by decide +kernel
  have hstay : ((s.stay Sample.runId future).getLast?.map (·.status)) = some .completed := by
    decide +kernel
  obtain ⟨last, hlast, hload, -⟩ := stored_as_held { retainedRuns := 0 }
    (Sample.archive fun _ => none) ⟨0⟩ [] future (Sample.run 1000)
    (fun _ _ => trivial) hsaved (by decide +kernel)
  have e : ((new { retainedRuns := 0 } (Sample.archive fun _ => none) ⟨0⟩).after []).perform
    (.register (Sample.run 1000)) = s := rfl
  rw [e] at hlast hload
  rw [show (s.stay Sample.runId future).getLast? = some last from hlast] at hstay
  exact ⟨hsaved, hnone, last, Option.some.inj hstay, hload⟩

/-- A run with a time limit beyond the format leaves memory, and is stored, while it is running. -/
theorem stored_running_beyond :
    let s := (Sample.supervisor 0 fun _ => none).after Sample.lost
    (Sample.supervisor 0 fun _ => none).AllSaved Sample.lost ∧ (s.run? Sample.runId).isNone ∧
      (s.snapshot? Sample.runId).map (·.getD "status" |>.asString?) = some (some "running") := by
  decide +kernel

/-! ## 2. Whichever saves fail -/

/-- The last run of an id that is saved in a history, if the store loads what is saved under the id. -/
def kept? (s : Supervisor) (id : String) (h : List Move) : Option Run :=
  if s.archive.store.canLoad id then s.lastSaved? id h else none

theorem load_of_kept? (hs : s.Sound) (hk : s.Separates id h) (hr : s.kept? id h = some run) :
    (s.after h).archive.store.load id = .ok (some run.toJson) := by
  unfold kept? at hr
  split at hr
  · next hl => exact load_of_lastSaved? hs hl hk hr
  · cases hr

/-- A run under an id that the store does not load is known as long as it is in memory, whatever is saved
    of it. -/
theorem snapshot?_of_not_canLoad (hl : s.archive.store.canLoad id = false) (h : List Move) :
    (s.after h).snapshot? id = ((s.after h).run? id).map Run.toJson := by
  unfold snapshot?
  cases (s.after h).run? id with
  | some run => rfl
  | none => exact Store.snapshot?_of_not_canLoad (((store_after s h).1 id).trans hl)

/-- **What is reported of a run**: the run in memory, or else the last that was saved since there was
    no snapshot of the id. -/
theorem snapshot?_after (hs : s.Sound) (hk : s.Separates id h) (hn : s.archive.snapshot? id = none)
    (hor : (((s.after h).run? id).or (s.kept? id h)).isSome = true ∨ s.archive.store.Orderly) :
    (s.after h).snapshot? id = (((s.after h).run? id).or (s.kept? id h)).map Run.toJson := by
  cases hl : s.archive.store.canLoad id with
  | false =>
      have hkept : s.kept? id h = none := if_neg (by rw [hl]; exact Bool.false_ne_true)
      rw [hkept, Option.or_none, snapshot?_of_not_canLoad hl]
  | true =>
      have hkept : s.kept? id h = s.lastSaved? id h := if_pos hl
      rw [hkept] at hor ⊢
      unfold snapshot?
      cases hr : (s.after h).run? id with
      | some run => rfl
      | none =>
          rw [hr, Option.none_or] at hor
          rw [Option.none_or]
          cases hlast : s.lastSaved? id h with
          | some run => exact Archive.snapshot?_of_load (load_of_lastSaved? hs hl hk hlast)
          | none =>
              rw [hlast] at hor
              exact (snapshot?_of_lastSaved?_eq_none hs hk (hor.resolve_left Bool.false_ne_true)
                hlast).trans hn

theorem archive_of_snapshot?_eq_none (hn : s.snapshot? id = none) : s.archive.snapshot? id = none := by
  unfold snapshot? at hn
  split at hn
  · cases hn
  · exact hn

/-- An id is known if there is anything to be reported of it. -/
theorem knows_eq (s : Supervisor) (id : String) : s.knows id = (s.snapshot? id).isSome := by
  unfold knows snapshot? run?
  cases s.state? id with
  | some st => simp
  | none => simp

theorem accepts_iff : s.accepts run = true ↔ run.status = .pending ∧ s.snapshot? run.id = none := by
  rw [accepts, knows_eq]
  simp

/-- A run of which nothing could be saved is forgotten when it leaves memory, and its id is free again; one
    whose end alone could not be saved is reported as it was before. -/
theorem forgotten_or_outdated :
    let h : List Move := [.register (Sample.run 1000), .occur Sample.runId .cancel]
    let full := Sample.supervisor 0 Sample.diskFull
    let lost := Sample.supervisor 0 fun k => if k = 2 then Sample.diskFull k else none
    full.Unbroken h ∧ ((full.after h).snapshot? Sample.runId).isNone = true ∧
      (full.after h).accepts (Sample.run 1000) = true ∧
      lost.Unbroken h ∧ ((lost.after h).snapshot? Sample.runId).map (·.getD "status" |>.asString?) =
        some (some "pending") := by
  decide +kernel

end StepRunner.Supervisor
