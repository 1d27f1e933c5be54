import StepRunner.Proofs.Broadcast
import StepRunner.Proofs.Supervisor.Occasions

/-!
# The memory of a supervisor

What holds of the runs in memory after every history, and what one move makes of one of them.

* `Supervisor.Sound`: every run has a dispatch that fits it, only runs at rest are in the queue for
  eviction or have nobody waiting for them, and the broadcaster is consistent. A new supervisor is
  sound and stays so (`sound_after`);
* `Supervisor.Became`: a run in memory is as it was, was just registered, or changed on an occasion
  (`became_of_state?`);
* `parted_of_left`: only runs at rest leave memory.
-/

namespace StepRunner.Supervisor

variable {s : Supervisor} {id k : String} {st st' : RunState} {t : Change} {m : Move} {run : Run} {o : Occasion}

/-! ## 1. The moves -/

theorem run?_eq_some : s.run? id = some run ↔ ∃ st, s.state? id = some st ∧ st.run = run := by
  unfold run?
  exact Option.map_eq_some_iff

theorem run?_eq_none : s.run? id = none ↔ s.state? id = none := Option.map_eq_none_iff

theorem run?_of_state? (h : s.state? id = some st) : s.run? id = some st.run :=
  run?_eq_some.mpr ⟨st, h, rfl⟩

theorem isSome_run? (h : s.state? id = some st) : (s.run? id).isSome = true := by
  rw [run?_of_state? h]
  rfl

/-- A run that is accepted is added to memory, also where its save breaks. -/
theorem register_of_accepts (h : s.accepts run = true) : ∃ archive journal,
    (s.register run).2 = { s with runs := s.runs ++ [{ run }], archive, journal } := by
  simp only [accepts, Bool.and_eq_true, beq_iff_eq, Bool.not_eq_true'] at h
  obtain ⟨archive, journal, e⟩ := persist_frame { s with runs := s.runs ++ [{ run }] } run
  unfold register
  rw [if_neg (by simp [h.1]), if_neg (by simp [h.2])]
  generalize { s with runs := s.runs ++ [{ run }] : Supervisor }.persist run = p at e ⊢
  obtain ⟨fault, s'⟩ := p
  cases fault with
  | some fault => exact ⟨archive, journal, e⟩
  | none =>
      have e : s' = _ := e
      exact ⟨archive, journal ++ [.registered run], by rw [e]; rfl⟩

theorem register_of_not_accepts (h : s.accepts run = false) : (s.register run).2 = s := by
  unfold register
  split
  · rfl
  · next hs =>
      split
      · rfl
      · next hk => simp_all [accepts]

theorem state?_append (s : Supervisor) (run : Run) :
    state? { s with runs := s.runs ++ [{ run }] } k =
      (s.state? k).or (if run.id = k then some { run } else none) := by
  unfold state?
  rw [List.find?_append]
  congr 1
  by_cases h : run.id = k <;> simp [h]

theorem not_knows_of_accepts (h : s.accepts run = true) :
    run.status = .pending ∧ s.state? run.id = none := by
  simp only [accepts, knows, Bool.and_eq_true, beq_iff_eq, Bool.not_eq_true',
    Bool.or_eq_false_iff, Option.isSome_eq_false_iff, Option.isNone_iff_eq_none] at h
  exact ⟨h.1, h.2.2⟩

/-- A run that is accepted is in memory. -/
theorem state?_of_accepts (h : s.accepts run = true) :
    (s.perform (.register run)).state? run.id = some { run } := by
  obtain ⟨archive, journal, e⟩ := register_of_accepts h
  show (s.register run).2.state? run.id = _
  rw [e]
  refine (state?_append s run).trans ?_
  rw [(not_knows_of_accepts h).2, if_pos rfl, Option.none_or]

/-- A stream is opened: on a run in memory, or closed on one that has left it. -/
theorem subscribe_frame (s : Supervisor) (id : String) : ∃ b,
    (s.subscribe id).2 = { s with broadcaster := b } ∧
    (b = s.broadcaster ∨ ∃ e, b = (s.broadcaster.subscribe id [e]).2 ∨
      b = (s.broadcaster.subscribe id [e]).2.close s.broadcaster.subscriptions.length ∨
      b = (s.broadcaster.addClosed id [e]).2) := by
  unfold subscribe
  split
  · next run _ =>
      refine ⟨_, rfl, .inr ⟨Event.progressOf run, ?_⟩⟩
      split
      · exact .inl rfl
      · exact .inr (.inl rfl)
  · split
    · exact ⟨_, rfl, .inl rfl⟩
    · split
      · exact ⟨_, rfl, .inl rfl⟩
      · next h _ => exact ⟨_, rfl, .inr ⟨⟨id, h⟩, .inr (.inr rfl)⟩⟩

theorem change?_of_state? (h : s.state? id = some st) : s.change? id o = st.on s.settings s.now o := by
  unfold change?
  rw [h, Option.bind_some]

theorem change?_eq_some {o : Occasion} (h : s.change? id o = some t) :
    ∃ st, s.state? id = some st ∧ st.Goes s.now o t := by
  obtain ⟨st, hst, ht⟩ := Option.bind_eq_some_iff.mp h
  exact ⟨st, hst, RunState.goes_of_on ht⟩

theorem id_of_change? {o : Occasion} (h : s.change? id o = some t) : t.next.run.id = id := by
  obtain ⟨st, hst, hg⟩ := change?_eq_some h
  rw [RunState.id_of_goes hg, id_of_state? hst]

/-- A run that changes is in memory. -/
theorem isSome_of_change? (h : s.change? id o = some t) : (s.state? t.next.run.id).isSome = true := by
  obtain ⟨st, hst, -⟩ := change?_eq_some h
  rw [id_of_change? h, hst]
  rfl

/-! ## 2. What a move makes of a run -/

/-- How a run came to be as it is after a move, in memory or as it leaves it. -/
inductive Became (s : Supervisor) (m : Move) (k : String) : RunState → Prop where
  | kept (st : RunState) (h : s.state? k = some st) (hm : ∀ o, m = .occur k o → s.change? k o = none) :
      Became s m k st
  | registered (run : Run) (hm : m = .register run) (hk : run.id = k) (hs : run.status = .pending)
      (hn : s.state? k = none) : Became s m k { run }
  | changed (st : RunState) (o : Occasion) (t : Change) (hm : m = .occur k o)
      (h : s.state? k = some st) (hc : s.change? k o = some t) (hg : st.Goes s.now o t) :
      Became s m k (s.outcome t)

theorem perform_of_none {o : Occasion} (h : s.change? id o = none) : s.perform (.occur id o) = s := by
  show s.occur id o = s
  unfold occur
  rw [h]

theorem perform_of_some {o : Occasion} (h : s.change? id o = some t) :
    s.perform (.occur id o) = (s.take t).2 := by
  show s.occur id o = (s.take t).2
  unfold occur
  rw [h]

theorem state?_take_of_change? {o : Occasion} (h : s.change? id o = some t) :
    (s.take t).2.state? k =
      if (s.keep t).1 = none ∧ t.leaves ∧ k ∈ s.departing id then none
      else if k = id then some (s.outcome t) else s.state? k := by
  rw [state?_take (isSome_of_change? h), id_of_change? h]

/-- **What became of a run in a move.** -/
theorem became_of_state? (h : (s.perform m).state? k = some st') : s.Became m k st' := by
  cases m with
  | register run =>
      cases ha : s.accepts run with
      | false =>
          have e : s.perform (.register run) = s := register_of_not_accepts ha
          rw [e] at h
          exact .kept st' h nofun
      | true =>
          obtain ⟨hs, hn⟩ := not_knows_of_accepts ha
          obtain ⟨archive, journal, e⟩ := register_of_accepts ha
          have e : s.perform (.register run) = _ := e
          rw [e] at h
          have h : ((s.state? k).or (if run.id = k then some { run } else none)) = some st' :=
            (state?_append s run).symm.trans h
          cases hk : s.state? k with
          | some st =>
              rw [hk] at h
              cases h
              exact .kept st' hk nofun
          | none =>
              rw [hk] at h
              by_cases hid : run.id = k
              · rw [if_pos hid] at h
                cases h
                exact .registered run rfl hid hs hk
              · rw [if_neg hid] at h
                cases h
  | occur id o =>
      cases hc : s.change? id o with
      | none =>
          rw [perform_of_none hc] at h
          refine .kept st' h fun o' e => ?_
          cases e
          exact hc
      | some t =>
          rw [perform_of_some hc, state?_take_of_change? hc] at h
          split at h
          · cases h
          · split at h
            · next hk =>
                subst hk
                cases h
                obtain ⟨st, hst, hg⟩ := change?_eq_some hc
                exact .changed st o t rfl hst hc hg
            · next hk =>
                refine .kept st' h fun o' e => ?_
                cases e
                exact absurd rfl hk
  | subscribe id =>
      obtain ⟨b, e, -⟩ := subscribe_frame s id
      have e : s.perform (.subscribe id) = { s with broadcaster := b } := e
      rw [e] at h
      exact .kept st' h nofun
  | unsubscribe n | read n | clock now => exact .kept st' h nofun

/-- A change leaves the settings and the time as they are. -/
theorem frame_take (s : Supervisor) (t : Change) :
    (s.take t).2.settings = s.settings ∧ (s.take t).2.now = s.now := by
  have hretire (s : Supervisor) (id : String) :
      (s.retire id).settings = s.settings ∧ (s.retire id).now = s.now := by
    unfold retire
    split <;> exact ⟨rfl, rfl⟩
  cases hk : (s.keep t).1 with
  | some fault =>
      obtain ⟨archive, journal, e⟩ := take_of_fault hk
      rw [e]
      exact ⟨rfl, rfl⟩
  | none =>
      obtain ⟨archive, journal, e⟩ := take_of_no_fault hk
      rw [e]
      cases hl : t.leaves with
      | true =>
          rw [conclude_of_leaves hl]
          exact hretire _ _
      | false =>
          rw [conclude_of_not_leaves hl]
          exact ⟨rfl, rfl⟩

/-- A move leaves the settings as they are, and the time too, but for a move of the clock. -/
theorem frame_perform (s : Supervisor) (m : Move) :
    (s.perform m).settings = s.settings ∧ (s.perform m).now =
      match m with
      | .clock now => now
      | _ => s.now := by
  cases m with
  | register run =>
      show (s.register run).2.settings = s.settings ∧ (s.register run).2.now = s.now
      cases ha : s.accepts run with
      | false =>
          rw [register_of_not_accepts ha]
          exact ⟨rfl, rfl⟩
      | true =>
          obtain ⟨archive, journal, e⟩ := register_of_accepts ha
          rw [e]
          exact ⟨rfl, rfl⟩
  | occur id o =>
      cases hc : s.change? id o with
      | none =>
          rw [perform_of_none hc]
          exact ⟨rfl, rfl⟩
      | some t =>
          rw [perform_of_some hc]
          exact frame_take s t
  | subscribe id =>
      obtain ⟨b, e, -⟩ := subscribe_frame s id
      show (s.subscribe id).2.settings = s.settings ∧ (s.subscribe id).2.now = s.now
      rw [e]
      exact ⟨rfl, rfl⟩
  | unsubscribe | read | clock => exact ⟨rfl, rfl⟩

theorem settings_after (s : Supervisor) (h : List Move) : (s.after h).settings = s.settings := by
  induction h generalizing s with
  | nil => rfl
  | cons m h ih => exact (ih (s.perform m)).trans (frame_perform s m).1

/-! ## 3. What holds after every history -/

/-- The runs in memory, the queue for eviction and the streams of events are in order. -/
structure Sound (s : Supervisor) : Prop where
  fits : ∀ k st, s.state? k = some st → st.dispatch.Fits st.run
  done : ∀ k st, s.state? k = some st → st.done = true → st.AtRest
  nodup : s.retired.Nodup
  retired : ∀ k ∈ s.retired, ∃ st, s.state? k = some st ∧ st.AtRest
  broadcaster : s.broadcaster.Consistent

theorem state?_new (settings : Settings) (archive : Archive) (now : Instant) :
    (new settings archive now).state? k = none := rfl

theorem sound_new (settings : Settings) (archive : Archive) (now : Instant) :
    (new settings archive now).Sound := by
  refine ⟨fun k st h => ?_, fun k st h _ => ?_, .nil, fun k h => ?_,
    Broadcaster.consistent_empty⟩
  · rw [state?_new] at h
    cases h
  · rw [state?_new] at h
    cases h
  · exact absurd h List.not_mem_nil

theorem fits_outcome (h : st.Goes s.now o t) (hf : st.dispatch.Fits st.run) :
    (s.outcome t).dispatch.Fits (s.outcome t).run := by
  obtain ⟨hn, hb⟩ := RunState.fits_of_goes h hf
  rw [run_outcome]
  rcases dispatch_outcome (s := s) (t := t) with e | ⟨fault, -, e⟩
  · rwa [e]
  · rw [e]
    exact hb fault

/-- A run that is kept or changes has a dispatch that fits, also where it leaves memory. -/
theorem Sound.fits_of_became (hs : s.Sound) (hb : s.Became m k st') : st'.dispatch.Fits st'.run := by
  cases hb with
  | kept _ hk _ => exact hs.fits k st' hk
  | registered run _ _ hp _ => exact ⟨fun _ h => (by rw [hp] at h; cases h), nofun, nofun⟩
  | changed st o t _ hk _ hg => exact fits_outcome hg (hs.fits k st hk)

theorem done_outcome (h : st.Goes s.now o t) (hd : (s.outcome t).done = true) :
    st.done = true ∨ t.leaves = true := by
  unfold outcome at hd
  split at hd
  · exact .inl (RunState.done_of_goes h ▸ hd)
  · split at hd
    · next hl => exact .inr hl
    · exact .inl (RunState.done_of_goes h ▸ hd)

theorem Sound.take (hs : s.Sound) (hc : s.change? id o = some t) : (s.take t).2.Sound := by
  obtain ⟨st, hst, hg⟩ := change?_eq_some hc
  have hid := id_of_change? hc
  have hf := hs.fits id st hst
  have hstate (k) := state?_take_of_change? (k := k) hc
  have hi := isSome_of_change? hc
  obtain ⟨hnodup, hmem⟩ := retired_take (t := t) hs.nodup hi
  rw [hid] at hmem
  refine ⟨fun k st' h => ?_, fun k st' h hd => ?_, hnodup, fun k hk => ?_, ?_⟩
  · rw [hstate] at h
    split at h
    · cases h
    · split at h
      · cases h
        exact fits_outcome hg hf
      · exact hs.fits k st' h
  · rw [hstate] at h
    split at h
    · cases h
    · split at h
      · cases h
        rcases done_outcome hg hd with hd | hl
        · exact RunState.atRest_of_goes hg hf (hs.done id st hst hd)
        · exact RunState.atRest_of_leaves hg hl
      · exact hs.done k st' h hd
  · obtain ⟨hin, hstay⟩ := hmem k hk
    rw [hstate, if_neg hstay]
    split
    · next hkid =>
        subst hkid
        refine ⟨_, rfl, ?_⟩
        rcases hin with hin | ⟨hl, -⟩
        · obtain ⟨st₀, h₀, hr⟩ := hs.retired k hin
          rw [hst] at h₀
          cases h₀
          exact RunState.atRest_of_goes hg hf hr
        · exact RunState.atRest_of_leaves hg hl
    · next hkid => exact hs.retired k (hin.resolve_right fun h => hkid h.2)
  · rw [broadcaster_take]
    split
    · exact hs.broadcaster.publishAll _ _
    · exact hs.broadcaster

theorem Sound.register (hs : s.Sound) (run : Run) : (s.register run).2.Sound := by
  cases ha : s.accepts run with
  | false => rwa [register_of_not_accepts ha]
  | true =>
      obtain ⟨hp, hn⟩ := not_knows_of_accepts ha
      obtain ⟨archive, journal, e⟩ := register_of_accepts ha
      rw [e]
      have hstate {k st} (h : state? { s with runs := s.runs ++ [{ run }], archive, journal } k = some st) :
          s.state? k = some st ∨ st = { run } := by
        have h := (state?_append s run).symm.trans h
        cases hk : s.state? k with
        | some st₀ =>
            rw [hk] at h
            exact .inl h
        | none =>
            rw [hk, Option.none_or] at h
            split at h
            · cases h
              exact .inr rfl
            · cases h
      refine ⟨fun k st h => ?_, fun k st h hd => ?_, hs.nodup, fun k hk => ?_, hs.broadcaster⟩
      · rcases hstate h with h | rfl
        · exact hs.fits k st h
        · exact ⟨fun _ h => (by rw [hp] at h; cases h), nofun, nofun⟩
      · rcases hstate h with h | rfl
        · exact hs.done k st h hd
        · cases hd
      · obtain ⟨st, hst, hr⟩ := hs.retired k hk
        refine ⟨st, (state?_append s run).trans ?_, hr⟩
        rw [hst, Option.some_or]

theorem Sound.broadcast (hs : s.Sound) {b : Broadcaster} (hb : b.Consistent) :
    { s with broadcaster := b : Supervisor }.Sound :=
  ⟨hs.fits, hs.done, hs.nodup, hs.retired, hb⟩

/-- **Every move leaves a sound supervisor sound.** -/
theorem sound_perform (hs : s.Sound) (m : Move) : (s.perform m).Sound := by
  cases m with
  | register run => exact hs.register run
  | occur id o =>
      cases hc : s.change? id o with
      | none => rwa [perform_of_none hc]
      | some t =>
          rw [perform_of_some hc]
          exact hs.take hc
  | subscribe id =>
      obtain ⟨b, e, hb⟩ := subscribe_frame s id
      have e : s.perform (.subscribe id) = { s with broadcaster := b } := e
      rw [e]
      refine hs.broadcast ?_
      rcases hb with rfl | ⟨x, rfl | rfl | rfl⟩
      · exact hs.broadcaster
      · exact hs.broadcaster.subscribe
      · exact hs.broadcaster.subscribe.close
      · exact hs.broadcaster.addClosed
  | unsubscribe n => exact hs.broadcast hs.broadcaster.close
  | read n => exact hs.broadcast hs.broadcaster.get
  | clock now => exact ⟨hs.fits, hs.done, hs.nodup, hs.retired, hs.broadcaster⟩

/-- **A sound supervisor is sound after every history.** -/
theorem sound_after (hs : s.Sound) (h : List Move) : (s.after h).Sound := by
  induction h generalizing s with
  | nil => exact hs
  | cons m h ih => exact ih (sound_perform hs m)

/-! ## 4. Leaving memory -/

/-- The move puts a run to rest. -/
def Parts (s : Supervisor) (m : Move) : Prop :=
  ∃ id o t, m = .occur id o ∧ s.change? id o = some t ∧ (s.keep t).1 = none ∧ t.leaves = true

/-- A move that puts no run to rest leaves the queue as it is, and those that left memory. -/
theorem queue_of_not_parts (h : ¬ s.Parts m) :
    (s.perform m).retired = s.retired ∧ (s.perform m).evicted = s.evicted := by
  cases m with
  | register run =>
      show (s.register run).2.retired = s.retired ∧ (s.register run).2.evicted = s.evicted
      cases ha : s.accepts run with
      | false =>
          rw [register_of_not_accepts ha]
          exact ⟨rfl, rfl⟩
      | true =>
          obtain ⟨archive, journal, e⟩ := register_of_accepts ha
          rw [e]
          exact ⟨rfl, rfl⟩
  | occur id o =>
      cases hc : s.change? id o with
      | none =>
          rw [perform_of_none hc]
          exact ⟨rfl, rfl⟩
      | some t =>
          rw [perform_of_some hc]
          cases hk : (s.keep t).1 with
          | some fault =>
              obtain ⟨archive, journal, e⟩ := take_of_fault hk
              rw [e]
              exact ⟨rfl, rfl⟩
          | none =>
              have hl : t.leaves = false := by
                cases hl : t.leaves with
                | false => rfl
                | true => exact absurd ⟨id, o, t, rfl, hc, hk, hl⟩ h
              obtain ⟨archive, journal, e⟩ := take_of_no_fault hk
              rw [e, conclude_of_not_leaves hl]
              exact ⟨rfl, rfl⟩
  | subscribe id =>
      obtain ⟨b, e, -⟩ := subscribe_frame s id
      show (s.subscribe id).2.retired = s.retired ∧ (s.subscribe id).2.evicted = s.evicted
      rw [e]
      exact ⟨rfl, rfl⟩
  | unsubscribe | read | clock => exact ⟨rfl, rfl⟩

/-- **A run leaves memory** as some run is put to rest. -/
theorem departs_of_left (h : s.state? k = some st) (hl : (s.perform m).state? k = none) :
    ∃ id o t, m = .occur id o ∧ s.change? id o = some t ∧ (s.keep t).1 = none ∧ t.leaves = true ∧
      k ∈ s.departing id := by
  cases m with
  | occur id o =>
      cases hc : s.change? id o with
      | none =>
          rw [perform_of_none hc, h] at hl
          cases hl
      | some t =>
          rw [perform_of_some hc, state?_take_of_change? hc] at hl
          split at hl
          · next hd => exact ⟨id, o, t, rfl, hc, hd.1, hd.2.1, hd.2.2⟩
          · split at hl
            · cases hl
            · rw [h] at hl
              cases hl
  | register run =>
      cases ha : s.accepts run with
      | false =>
          have e : s.perform (.register run) = s := register_of_not_accepts ha
          rw [e, h] at hl
          cases hl
      | true =>
          obtain ⟨archive, journal, e⟩ := register_of_accepts ha
          have e : s.perform (.register run) = _ := e
          rw [e] at hl
          have hl := (state?_append s run).symm.trans hl
          rw [h] at hl
          cases hl
  | subscribe id =>
      obtain ⟨b, e, -⟩ := subscribe_frame s id
      have e : s.perform (.subscribe id) = { s with broadcaster := b } := e
      rw [e] at hl
      have hl : s.state? k = none := hl
      rw [h] at hl
      cases hl
  | unsubscribe n | read n | clock now =>
      have hl : s.state? k = none := hl
      rw [h] at hl
      cases hl

/-- **What became of a run that leaves memory**: it is at rest. -/
theorem parted_of_left (hs : s.Sound) (h : s.state? k = some st)
    (hl : (s.perform m).state? k = none) :
    ∃ st', s.Became m k st' ∧ st'.AtRest ∧ s.parting? k m = some st'.run := by
  obtain ⟨id, o, t, rfl, hc, hk, hleaves, hd⟩ := departs_of_left h hl
  have hid := id_of_change? hc
  obtain ⟨st₀, hst₀, hg⟩ := change?_eq_some hc
  have hi := isSome_of_change? hc
  have he := evicted_take hi hk hleaves
  rw [hid] at he
  -- the run is found among those that leave under its own id
  have hfind (st' : RunState) (hst' : (if k = id then some (s.outcome t) else s.state? k) = some st') :
      s.parting? k (.occur id o) = some st'.run := by
    have hrun {i x} (hx : (if i = id then some (s.outcome t) else s.state? i) = some x) :
        x.run.id = i := by
      split at hx
      · next hi =>
          cases hx
          rw [run_outcome, hid, hi]
      · exact id_of_state? hx
    unfold parting?
    rw [perform_of_some hc, he, List.drop_left]
    have hmem : st' ∈ (s.departing id).filterMap fun i =>
        if i = id then some (s.outcome t) else s.state? i := List.mem_filterMap.mpr ⟨k, hd, hst'⟩
    obtain ⟨x, hx⟩ := Option.isSome_iff_exists.mp (List.find?_isSome
      (p := fun st : RunState => st.run.id == k) |>.mpr ⟨st', hmem, by simpa using hrun hst'⟩)
    obtain ⟨i, -, hxi⟩ := List.mem_filterMap.mp (List.mem_of_find?_eq_some hx)
    obtain rfl : i = k := (hrun hxi).symm.trans (by simpa using List.find?_some hx)
    rw [hst'] at hxi
    cases hxi
    rw [hx, Option.map_some]
  by_cases hkid : k = id
  · subst hkid
    refine ⟨s.outcome t, .changed st₀ o t rfl hst₀ hc hg, RunState.atRest_of_leaves hg hleaves, ?_⟩
    exact hfind _ (if_pos rfl)
  · refine ⟨st, .kept st h fun o' e => ?_, ?_, hfind st ((if_neg hkid).trans h)⟩
    · cases e
      exact absurd rfl hkid
    · obtain ⟨st', hst', hr⟩ := hs.retired k ((mem_departing hd).resolve_right hkid)
      rw [h] at hst'
      cases hst'
      exact hr

end StepRunner.Supervisor
