import StepRunner.Proofs.Store
import StepRunner.Proofs.Supervisor.Lifetime

/-!
# What reaches the store

A move hands at most one run to the store. So what the store has of a run after a history is what the
last save of it left there, if it loads what was saved under the id and mixes it up with no other.

* `archive_perform`: a move touches the archive by the save of the run that it hands over, and in no
  other way;
* `Supervisor.lastSaved?`: the last run of an id whose save succeeded in a history; this is what the
  store loads at its end (`load_of_lastSaved?`, `snapshot?_of_lastSaved?_eq_none`);
* `over_after`: nothing more is saved of a run that has ended, or has left memory, once there is a
  snapshot of it;
* `Supervisor.AllSaved`: every save of a history succeeds. Then the store follows the run in memory move
  by move (`load_of_became`).
-/

namespace StepRunner

variable {id : String} {run run' : Run} {j : Json}

/-! ## 1. Archives -/

namespace Archive

variable {a : Archive}

theorem isOk_iff {x : Except SaveFault Unit} : x.isOk = true ↔ x = .ok () := by
  cases x <;> simp [Except.isOk, Except.toBool]

/-- A save is stopped before it reaches the store, or it is one of the store. -/
theorem save_cases (a : Archive) (run : Run) :
    (a.save run).1 ≠ .ok () ∧ (a.save run).2.store = a.store ∨
      (a.save run).1 = (a.store.save run).1 ∧ (a.save run).2.store = (a.store.save run).2 := by
  unfold save
  cases h : a.faultAt (a.calls + 1) with
  | some fault => exact .inl (by simp [h])
  | none => exact .inr (by simp [h])

/-- Which ids and runs the store loads, keeps and tells apart is not up to what is saved. -/
theorem store_save (a : Archive) (run : Run) :
    (∀ id, (a.save run).2.store.canLoad id = a.store.canLoad id) ∧
    (∀ run', (a.save run).2.store.CanKeep run' ↔ a.store.CanKeep run') ∧
    ∀ id run', (a.save run).2.store.Separates id run' ↔ a.store.Separates id run' := by
  rcases save_cases a run with ⟨-, e⟩ | ⟨-, e⟩
  · rw [e]
    exact ⟨fun _ => rfl, fun _ => Iff.rfl, fun _ _ => Iff.rfl⟩
  · rw [e]
    exact Store.frame_save _ run

theorem orderly_save (h : a.store.Orderly) (run : Run) : (a.save run).2.store.Orderly := by
  rcases save_cases a run with ⟨-, e⟩ | ⟨-, e⟩
  · rwa [e]
  · rw [e]
    exact h.save run

theorem load_save_self (hl : a.store.canLoad run.id = true) (hk : a.store.Separates run.id run)
    (h : (a.save run).1 = .ok ()) : (a.save run).2.store.load run.id = .ok (some run.toJson) := by
  rcases save_cases a run with ⟨hne, -⟩ | ⟨e, e'⟩
  · exact absurd h hne
  · rw [e']
    exact Store.load_save_self hl hk (e ▸ h)

theorem load_save (hk : a.store.Separates id run) (h : run.id = id → (a.save run).1 ≠ .ok ())
    (hj : a.store.load id = .ok (some j)) : (a.save run).2.store.load id = .ok (some j) := by
  rcases save_cases a run with ⟨-, e⟩ | ⟨e, e'⟩
  · rwa [e]
  · rw [e']
    exact Store.load_save hk (e ▸ h) hj

theorem snapshot?_save (ho : a.store.Orderly) (hk : a.store.Separates id run)
    (h : run.id = id → (a.save run).1 ≠ .ok ()) : (a.save run).2.snapshot? id = a.snapshot? id := by
  rcases save_cases a run with ⟨-, e⟩ | ⟨e, e'⟩
  · exact congrArg (·.snapshot? id) e
  · exact (congrArg (·.snapshot? id) e').trans (Store.snapshot?_save ho hk (e ▸ h))

/-- What can be loaded of a run is its snapshot. -/
theorem snapshot?_of_load (h : a.store.load id = .ok (some run.toJson)) :
    a.snapshot? id = some run.toJson :=
  Store.snapshot?_eq_some_iff.mpr ⟨h, nofun⟩

end Archive

namespace Supervisor

variable {s : Supervisor} {st : RunState} {t : Change} {m : Move} {o : Occasion} {h h' : List Move}

/-! ## 2. What a move hands over -/

theorem archive_persist (s : Supervisor) (run : Run) :
    (s.persist run).2.archive = (s.archive.save run).2 := by
  unfold persist
  split
  · next e => rw [e]
  · next e => rw [e]; rfl
  · next e => rw [e]

theorem archive_keep (s : Supervisor) (t : Change) : (s.keep t).2.archive =
    if t.saved then (s.archive.save t.next.run).2 else s.archive := by
  unfold keep
  split
  · exact archive_persist s _
  · rfl

theorem archive_retire (s : Supervisor) (id : String) : (s.retire id).archive = s.archive := by
  unfold retire
  split <;> rfl

theorem archive_conclude (s : Supervisor) (t : Change) : (s.conclude t).archive = s.archive := by
  unfold conclude
  split
  · exact archive_retire _ _
  · rfl

theorem archive_take (s : Supervisor) (t : Change) : (s.take t).2.archive =
    if t.saved then (s.archive.save t.next.run).2 else s.archive := by
  have hk : (((s.tell t.before).put t.next).keep t).2.archive =
    if t.saved then (s.archive.save t.next.run).2 else s.archive := archive_keep _ t
  unfold take
  split
  · next e =>
      rw [e] at hk
      exact hk
  · next e =>
      rw [e] at hk
      exact (archive_conclude _ t).trans hk

theorem archive_register (h : s.accepts run = true) :
    (s.register run).2.archive = (s.archive.save run).2 := by
  have hp := archive_persist { s with runs := s.runs ++ [{ run }] } run
  simp only [accepts, Bool.and_eq_true, beq_iff_eq, Bool.not_eq_true'] at h
  unfold register
  rw [if_neg (by simp [h.1]), if_neg (by simp [h.2])]
  split
  · next e =>
      rw [e] at hp
      exact hp
  · next e =>
      rw [e] at hp
      exact hp

theorem handsOver_of_change? (hc : s.change? id o = some t) :
    s.handsOver (.occur id o) = if t.saved then some t.next.run else none := by
  unfold handsOver
  simp only [hc, Option.bind_some]

theorem handsOver_of_none (hc : s.change? id o = none) : s.handsOver (.occur id o) = none := by
  unfold handsOver
  simp only [hc, Option.bind_none]

/-- **A move touches the archive** by the save of the run that it hands over. -/
theorem archive_perform (s : Supervisor) (m : Move) : (s.perform m).archive =
    match s.handsOver m with
    | some run => (s.archive.save run).2
    | none => s.archive := by
  cases m with
  | register run =>
      show (s.register run).2.archive = _
      cases ha : s.accepts run with
      | true => simp [handsOver, ha, archive_register ha]
      | false => simp [handsOver, ha, register_of_not_accepts ha]
  | occur id o =>
      cases hc : s.change? id o with
      | none => rw [perform_of_none hc, handsOver_of_none hc]
      | some t =>
          rw [perform_of_some hc, archive_take, handsOver_of_change? hc]
          cases t.saved <;> rfl
  | subscribe id =>
      obtain ⟨b, e, -⟩ := subscribe_frame s id
      show (s.subscribe id).2.archive = s.archive
      rw [e]
  | unsubscribe n | read n | clock now => rfl

/-- A change is saved only as long as the run is open. -/
theorem isOpen_of_saved {now : Instant} (h : st.Goes now o t) (hs : t.saved = true) :
    st.run.isOpen = true := by
  cases h with
  | begin hd hp => exact Run.isOpen_of_pending hp
  | record p c caseId r hd hc ha => exact Run.isOpen_of_running (Run.running_of_awaits ha)
  | noSession p c caseId message hd hc ho => exact ho
  | complete p hd ho he => exact ho
  | giveUp message hd ho => exact ho
  | expire hd ho => exact ho
  | cancel ho => exact ho
  | launch | beginLate | openPool | openNone | openNever | fill | handIn | drop | stop | giveUpLate
  | depart => cases hs

/-- **Whatever changes a run is saved.** -/
theorem saved_of_ne {now : Instant} (h : st.Goes now o t) (hne : t.next.run ≠ st.run) :
    t.saved = true := by
  cases h with
  | launch | beginLate | openPool | openNone | openNever | fill | handIn | drop | stop | giveUpLate
  | depart => exact absurd rfl hne
  | begin | record | noSession | complete | giveUp | expire | cancel => rfl

/-- A run that is handed over was just registered, or is in memory and open. -/
theorem handsOver_cases (hr : s.handsOver m = some run) :
    m = .register run ∧ s.accepts run = true ∨
      ∃ o st t, m = .occur run.id o ∧ s.state? run.id = some st ∧ s.change? run.id o = some t ∧
        st.Goes s.now o t ∧ t.next.run = run ∧ st.run.isOpen = true := by
  cases m with
  | register run' =>
      have hr : (if s.accepts run' then some run' else none) = some run := hr
      split at hr
      · next ha =>
          cases hr
          exact .inl ⟨rfl, ha⟩
      · cases hr
  | occur id o =>
      cases hc : s.change? id o with
      | none =>
          rw [handsOver_of_none hc] at hr
          cases hr
      | some t =>
          rw [handsOver_of_change? hc] at hr
          split at hr
          · next hsave =>
              cases hr
              obtain ⟨st, hst, hg⟩ := change?_eq_some hc
              obtain rfl := id_of_change? hc
              exact .inr ⟨o, st, t, rfl, hst, hc, hg, rfl, isOpen_of_saved hg hsave⟩
          · cases hr
  | subscribe | unsubscribe | read | clock => cases hr

/-! ## 3. Ids that the store tells apart -/

/-- The store does not mix up the id with a run that is in memory or that a history registers. -/
structure Separates (s : Supervisor) (id : String) (h : List Move) : Prop where
  held : ∀ k run, s.run? k = some run → s.archive.store.Separates id run
  registered : ∀ run ∈ Move.registered h, s.archive.store.Separates id run

theorem separates_new {settings : Settings} {archive : Archive} {now : Instant}
    (hk : ∀ run ∈ Move.registered h, archive.store.Separates id run) :
    (new settings archive now).Separates id h :=
  ⟨fun _ _ hr => (by cases hr), hk⟩

/-- A move changes none of this. -/
theorem store_perform (s : Supervisor) (m : Move) :
    (∀ id, (s.perform m).archive.store.canLoad id = s.archive.store.canLoad id) ∧
    (∀ run, (s.perform m).archive.store.CanKeep run ↔ s.archive.store.CanKeep run) ∧
    ∀ id run, (s.perform m).archive.store.Separates id run ↔ s.archive.store.Separates id run := by
  rw [archive_perform]
  split
  · exact Archive.store_save _ _
  · exact ⟨fun _ => rfl, fun _ => Iff.rfl, fun _ _ => Iff.rfl⟩

/-- Nor does a history. -/
theorem store_after (s : Supervisor) (h : List Move) :
    (∀ id, (s.after h).archive.store.canLoad id = s.archive.store.canLoad id) ∧
    ∀ run, (s.after h).archive.store.CanKeep run ↔ s.archive.store.CanKeep run := by
  induction h generalizing s with
  | nil => exact ⟨fun _ => rfl, fun _ => Iff.rfl⟩
  | cons m h ih =>
      obtain ⟨hload, hkeep⟩ := ih (s.perform m)
      obtain ⟨hload', hkeep', -⟩ := store_perform s m
      exact ⟨fun id => (hload id).trans (hload' id), fun run => (hkeep run).trans (hkeep' run)⟩

theorem orderly_perform (ho : s.archive.store.Orderly) (m : Move) :
    (s.perform m).archive.store.Orderly := by
  rw [archive_perform]
  split
  · exact Archive.orderly_save ho _
  · exact ho

theorem mem_registered_cons :
    run ∈ Move.registered (m :: h) ↔ m = .register run ∨ run ∈ Move.registered h := by
  cases m <;> simp [Move.registered, eq_comm]

theorem orderly_after (ho : s.archive.store.Orderly) (h : List Move) :
    (s.after h).archive.store.Orderly := by
  induction h generalizing s with
  | nil => exact ho
  | cons m h ih => exact ih (orderly_perform ho m)

/-- What is handed over is mixed up with the id no more than the runs in memory. -/
theorem Separates.handsOver (hk : s.Separates id (m :: h)) (hs : s.Sound)
    (hr : s.handsOver m = some run) : s.archive.store.Separates id run := by
  rcases handsOver_cases hr with ⟨rfl, -⟩ | ⟨o, st, t, -, hst, -, hg, rfl, -⟩
  · exact hk.registered run (mem_registered_cons.mpr (.inl rfl))
  · have hturn := RunState.turns_of_goes hg (hs.fits _ st hst)
    exact (hk.held _ st.run (run?_of_state? hst)).congr hturn.id_eq hturn.config_eq

theorem Separates.perform (hk : s.Separates id (m :: h)) (hs : s.Sound) :
    (s.perform m).Separates id h := by
  refine ⟨fun k run hr => ?_, fun run hr => ?_⟩
  · rw [(store_perform s m).2.2]
    cases hr₀ : s.run? k with
    | none =>
        obtain ⟨rfl, -⟩ := registered_of_none hr₀ hr
        exact hk.registered run (mem_registered_cons.mpr (.inl rfl))
    | some run₀ =>
        obtain ⟨news, hturn⟩ := turns_of_held hs hr₀ hr
        exact (hk.held k run₀ hr₀).congr hturn.id_eq hturn.config_eq
  · rw [(store_perform s m).2.2]
    exact hk.registered run (mem_registered_cons.mpr (.inr hr))

theorem Separates.after (hk : s.Separates id (h ++ h')) (hs : s.Sound) :
    (s.after h).Separates id h' := by
  induction h generalizing s with
  | nil => exact hk
  | cons m h ih => exact ih (hk.perform hs) (sound_perform hs m)

/-! ## 4. One save -/

/-- The run that a move hands over, if it is saved. -/
def savedIn? (s : Supervisor) (m : Move) : Option Run :=
  (s.handsOver m).filter fun run => (s.archive.save run).1.isOk

theorem savedIn?_eq_some :
    s.savedIn? m = some run ↔ s.handsOver m = some run ∧ (s.archive.save run).1 = .ok () := by
  rw [savedIn?, Option.filter_eq_some_iff, Archive.isOk_iff]

/-- A run that was saved is loaded as it was then. -/
theorem load_of_savedIn? (hl : s.archive.store.canLoad run.id = true)
    (hk : s.archive.store.Separates run.id run) (hr : s.savedIn? m = some run) :
    (s.perform m).archive.store.load run.id = .ok (some run.toJson) := by
  obtain ⟨hr, hok⟩ := savedIn?_eq_some.mp hr
  rw [archive_perform, hr]
  exact Archive.load_save_self hl hk hok

/-- What can be loaded of other runs stays. -/
theorem load_perform (hk : ∀ run, s.handsOver m = some run → s.archive.store.Separates id run)
    (hn : ∀ run, s.savedIn? m = some run → run.id ≠ id)
    (hj : s.archive.store.load id = .ok (some j)) :
    (s.perform m).archive.store.load id = .ok (some j) := by
  rw [archive_perform]
  split
  · next run hr =>
      exact Archive.load_save (hk run hr) (fun hid hok => hn run (savedIn?_eq_some.mpr ⟨hr, hok⟩) hid) hj
  · exact hj

/-- Nothing else can be loaded of them, if the store is in order. -/
theorem snapshot?_perform (ho : s.archive.store.Orderly)
    (hk : ∀ run, s.handsOver m = some run → s.archive.store.Separates id run)
    (hn : ∀ run, s.savedIn? m = some run → run.id ≠ id) :
    (s.perform m).archive.snapshot? id = s.archive.snapshot? id := by
  rw [archive_perform]
  split
  · next run hr =>
      exact Archive.snapshot?_save ho (hk run hr) fun hid hok =>
        hn run (savedIn?_eq_some.mpr ⟨hr, hok⟩) hid
  · rfl

/-! ## 5. Many saves -/

/-- The last run of an id that is saved in a history. -/
def lastSaved? (s : Supervisor) (id : String) : List Move → Option Run
  | [] => none
  | m :: h => ((s.perform m).lastSaved? id h).or ((s.savedIn? m).filter (·.id == id))

theorem lastSaved?_cons_eq_none : s.lastSaved? id (m :: h) = none ↔
    (s.perform m).lastSaved? id h = none ∧ ∀ run, s.savedIn? m = some run → run.id ≠ id := by
  simp only [lastSaved?, Option.or_eq_none_iff, Option.filter_eq_none_iff, beq_iff_eq, ne_eq]

/-- What can be loaded stays where nothing is saved. -/
theorem load_of_lastSaved?_eq_none (hs : s.Sound) (hk : s.Separates id h)
    (hn : s.lastSaved? id h = none) (hj : s.archive.store.load id = .ok (some j)) :
    (s.after h).archive.store.load id = .ok (some j) := by
  induction h generalizing s with
  | nil => exact hj
  | cons m h ih =>
      obtain ⟨hn, hm⟩ := lastSaved?_cons_eq_none.mp hn
      exact ih (sound_perform hs m) (hk.perform hs) hn
        (load_perform (fun run hr => hk.handsOver hs hr) hm hj)

/-- Nothing else can be loaded, if the store is in order. -/
theorem snapshot?_of_lastSaved?_eq_none (hs : s.Sound) (hk : s.Separates id h)
    (ho : s.archive.store.Orderly) (hn : s.lastSaved? id h = none) :
    (s.after h).archive.snapshot? id = s.archive.snapshot? id := by
  induction h generalizing s with
  | nil => rfl
  | cons m h ih =>
      obtain ⟨hn, hm⟩ := lastSaved?_cons_eq_none.mp hn
      rw [after_cons, ih (sound_perform hs m) (hk.perform hs) (orderly_perform ho m) hn]
      exact snapshot?_perform ho (fun run hr => hk.handsOver hs hr) hm

/-- **What the store has of a run** is what its last save left there. -/
theorem load_of_lastSaved? (hs : s.Sound) (hl : s.archive.store.canLoad id = true)
    (hk : s.Separates id h) (hr : s.lastSaved? id h = some run) :
    (s.after h).archive.store.load id = .ok (some run.toJson) := by
  induction h generalizing s with
  | nil => cases hr
  | cons m h ih =>
      have hs' := sound_perform hs m
      have hk' := hk.perform hs
      have hl' := ((store_perform s m).1 id).trans hl
      cases hn : (s.perform m).lastSaved? id h with
      | some run' =>
          rw [lastSaved?, hn, Option.some_or] at hr
          cases hr
          exact ih hs' hl' hk' hn
      | none =>
          rw [lastSaved?, hn, Option.none_or, Option.filter_eq_some_iff] at hr
          obtain ⟨hr, hid⟩ := hr
          obtain rfl := beq_iff_eq.mp hid
          rw [after_cons]
          exact load_of_lastSaved?_eq_none hs' hk' hn
            (load_of_savedIn? hl (hk.handsOver hs (savedIn?_eq_some.mp hr).1) hr)

/-! ## 6. Runs that are over -/

theorem not_accepts_of_snapshot? (hj : s.archive.snapshot? run.id = some j) : s.accepts run = false := by
  simp [accepts, knows, hj]

/-- **A run that is over**, with a snapshot of it in the store: one move saves nothing of it, and leaves
    it as it is, if it is in memory still. -/
theorem over_perform (hs : s.Sound) (hk : s.Separates id (m :: h))
    (ht : ∀ run, s.run? id = some run → run.status.isTerminal = true)
    (hj : s.archive.snapshot? id = some j) :
    (∀ run, s.savedIn? m = some run → run.id ≠ id) ∧ (s.perform m).archive.snapshot? id = some j ∧
      ((s.perform m).run? id = s.run? id ∨ (s.perform m).run? id = none) := by
  have hn (run : Run) (hr : s.savedIn? m = some run) : run.id ≠ id := by
    rintro rfl
    rcases handsOver_cases (savedIn?_eq_some.mp hr).1 with ⟨-, ha⟩ | ⟨o, st, t, -, hst, -, -, -, ho⟩
    · rw [not_accepts_of_snapshot? hj] at ha
      cases ha
    · exact Run.not_isTerminal ho (ht st.run (run?_of_state? hst))
  refine ⟨hn, ?_, ?_⟩
  · obtain ⟨hload, hnull⟩ := Store.snapshot?_eq_some_iff.mp hj
    exact Store.snapshot?_eq_some_iff.mpr ⟨load_perform (fun run hr => hk.handsOver hs hr) hn hload, hnull⟩
  · cases hr' : (s.perform m).run? id with
    | none => exact .inr rfl
    | some run' =>
        left
        cases hr : s.run? id with
        | some run =>
            obtain ⟨news, hturn⟩ := turns_of_held hs hr hr'
            rw [(hturn.of_terminal (ht run hr)).1]
        | none =>
            obtain ⟨rfl, -⟩ := registered_of_none hr hr'
            have hid : run'.id = id := by
              obtain ⟨st, hst, rfl⟩ := run?_eq_some.mp hr'
              exact id_of_state? hst
            have e : s.perform (.register run') = s :=
              register_of_not_accepts (not_accepts_of_snapshot? (hid ▸ hj))
            rw [e, hr] at hr'
            cases hr'

theorem over_after (hs : s.Sound) (hk : s.Separates id h)
    (ht : ∀ run, s.run? id = some run → run.status.isTerminal = true)
    (hj : s.archive.snapshot? id = some j) :
    s.lastSaved? id h = none ∧ (s.after h).archive.snapshot? id = some j ∧
      ((s.after h).run? id = s.run? id ∨ (s.after h).run? id = none) := by
  induction h generalizing s with
  | nil => exact ⟨rfl, hj, .inl rfl⟩
  | cons m h ih =>
      obtain ⟨hn, hj', hr'⟩ := over_perform hs hk ht hj
      have ht' : ∀ run, (s.perform m).run? id = some run → run.status.isTerminal = true := by
        intro run hr
        rcases hr' with e | e
        · exact ht run (e ▸ hr)
        · rw [e] at hr
          cases hr
      obtain ⟨hsaved, hj'', hr''⟩ := ih (sound_perform hs m) (hk.perform hs) ht' hj'
      refine ⟨lastSaved?_cons_eq_none.mpr ⟨hsaved, hn⟩, hj'', ?_⟩
      rcases hr'' with e | e
      · rw [after_cons, e]
        exact hr'
      · exact .inr e

/-! ## 7. Histories in which every save succeeds -/

/-- Whatever a move hands over is saved. -/
def Saves (s : Supervisor) (m : Move) : Prop :=
  ∀ run, s.handsOver m = some run → (s.archive.save run).1.isOk = true

instance (s : Supervisor) (m : Move) : Decidable (s.Saves m) :=
  decidable_of_iff ((s.handsOver m).all fun run => (s.archive.save run).1.isOk)
    (by unfold Saves; cases s.handsOver m <;> simp)

/-- Every save of a history succeeds. -/
def AllSaved (s : Supervisor) : List Move → Prop
  | [] => True
  | m :: h => s.Saves m ∧ (s.perform m).AllSaved h

instance decidableAllSaved (s : Supervisor) : (h : List Move) → Decidable (s.AllSaved h)
  | [] => isTrue trivial
  | m :: h => @instDecidableAnd _ _ _ (decidableAllSaved (s.perform m) h)

theorem allSaved_append : s.AllSaved (h ++ h') ↔ s.AllSaved h ∧ (s.after h).AllSaved h' := by
  induction h generalizing s with
  | nil => exact (true_and _).symm ▸ Iff.rfl
  | cons m h ih =>
      show s.Saves m ∧ (s.perform m).AllSaved (h ++ h') ↔ (s.Saves m ∧ (s.perform m).AllSaved h) ∧ _
      rw [ih, and_assoc]
      rfl

theorem savedIn?_of_saves (hm : s.Saves m) (hr : s.handsOver m = some run) :
    s.savedIn? m = some run :=
  savedIn?_eq_some.mpr ⟨hr, Archive.isOk_iff.mp (hm run hr)⟩

/-- A save that succeeds does not break. -/
theorem not_breaks_of_saves (hm : s.Saves m) : ¬ s.Breaks m := by
  rintro ⟨run, hr, hb⟩
  have hok := Archive.isOk_iff.mp (hm run hr)
  unfold persist at hb
  split at hb
  · cases hb
  · next e =>
      rw [e] at hok
      cases hok
  · next e =>
      rw [e] at hok
      cases hok

theorem unbroken_of_allSaved (hsaved : s.AllSaved h) : s.Unbroken h := by
  induction h generalizing s with
  | nil => trivial
  | cons m h ih => exact ⟨not_breaks_of_saves hsaved.1, ih hsaved.2⟩

/-- **What the store has of a run in memory** is the run as it is, also as it leaves memory. -/
theorem load_of_became {st' : RunState} (hs : s.Sound) (hk : s.Separates id (m :: h))
    (hm : s.Saves m) (hst : s.state? id = some st) (hb : s.Became m id st')
    (hload : s.archive.store.load id = .ok (some st.run.toJson)) :
    (s.perform m).archive.store.load id = .ok (some st'.run.toJson) := by
  cases hb with
  | kept _ hst' hc =>
      rw [hst] at hst'
      cases hst'
      refine load_perform (fun run hr => hk.handsOver hs hr) (fun run hr => ?_) hload
      rintro rfl
      rcases handsOver_cases (savedIn?_eq_some.mp hr).1 with ⟨-, ha⟩ | ⟨o, _, t, rfl, -, hc', -⟩
      · rw [(not_knows_of_accepts ha).2] at hst
        cases hst
      · rw [hc o rfl] at hc'
        cases hc'
  | registered run _ _ _ hn =>
      rw [hst] at hn
      cases hn
  | changed st₀ o t hm' hst' hc hg =>
      rw [hst] at hst'
      cases hst'
      subst hm'
      have hh := handsOver_of_change? hc
      rw [run_outcome]
      cases hsave : t.saved with
      | true =>
          rw [hsave, if_pos rfl] at hh
          obtain rfl := id_of_change? hc
          exact load_of_savedIn? (Store.canLoad_of_load hload) (hk.handsOver hs hh)
            (savedIn?_of_saves hm hh)
      | false =>
          rw [hsave, if_neg Bool.false_ne_true] at hh
          have hrun : t.next.run = st.run := by
            by_contra hne
            rw [saved_of_ne hg hne] at hsave
            cases hsave
          rw [hrun, archive_perform, hh]
          exact hload

end Supervisor

end StepRunner
