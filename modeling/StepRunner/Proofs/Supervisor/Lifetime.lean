import Mathlib.Data.List.Chain
import Mathlib.Logic.Relation
import StepRunner.Proofs.Sample
import StepRunner.Proofs.Supervisor.Memory

/-!
# The life of a run in memory

A run only ever goes forward, whatever happens and whichever save breaks.

* `RunStatus.Next`: the steps from one status to another;
* `Run.Advances`: a run has gone on from an earlier state to a later one;
* `advances_through_stay`: any two states of a stay in memory stand in this relation, and of all
  requests to cancel during it only one is answered with yes.
-/

namespace StepRunner

/-! ## 1. Going forward -/

/-- One status comes right after another. -/
inductive RunStatus.Next : RunStatus → RunStatus → Prop where
  | start : Next .pending .running
  | complete : Next .running .completed
  | fail : Next .running .failed
  | cancel : Next .running .cancelled
  | cancelPending : Next .pending .cancelled

namespace Run

/-- A run has gone on: its status has moved along the steps, there are no fewer results and no more
    cases without one, every result is still there, and a run that had ended is as it was. -/
structure Advances (run run' : Run) : Prop where
  status : Relation.ReflTransGen RunStatus.Next run.status run'.status
  completed : run.counts.passed + run.counts.failed ≤ run'.counts.passed + run'.counts.failed
  pending : run'.counts.pending ≤ run.counts.pending
  results : ∀ c r, run.caseResults.result? c = some r → run'.caseResults.result? c = some r
  ended : run.status.isTerminal = true → run' = run ∧ run'.toJson = run.toJson

variable {run run' run'' : Run} {now : Instant} {news : List Happening}

theorem Advances.refl (run : Run) : run.Advances run :=
  ⟨.refl, Int.le_refl _, Int.le_refl _, fun _ _ h => h, fun _ => ⟨rfl, rfl⟩⟩

theorem Advances.trans (h : run.Advances run') (h' : run'.Advances run'') : run.Advances run'' := by
  refine ⟨h.status.trans h'.status, Int.le_trans h.completed h'.completed,
    Int.le_trans h'.pending h.pending, fun c r hr => h'.results c r (h.results c r hr), fun ht => ?_⟩
  obtain ⟨rfl, -⟩ := h.ended ht
  exact h'.ended ht

instance : Trans Advances Advances Advances := ⟨Advances.trans⟩

theorem next_cancelled (ho : run.isOpen = true) : run.status.Next .cancelled := by
  rw [isOpen_iff] at ho
  cases hs : run.status with
  | pending => exact .cancelPending
  | running => exact .cancel
  | completed | failed | cancelled =>
      rw [hs] at ho
      cases ho

theorem Turns.reaches (h : run.Turns now run' news) :
    Relation.ReflTransGen RunStatus.Next run.status run'.status := by
  cases h with
  | stays | records => exact .refl
  | starts hs => exact .single (hs ▸ .start)
  | completes hs ha => exact .single (hs ▸ .complete)
  | fails message hs => exact .single (hs ▸ .fail)
  | cancels ho => exact .single (next_cancelled ho)

/-- A change leaves the counts as they are, up to the duration, or counts one more result. -/
theorem Turns.counts (h : run.Turns now run' news) :
    (run'.counts.passed = run.counts.passed ∧ run'.counts.failed = run.counts.failed ∧
      run'.counts.pending = run.counts.pending) ∨ ∃ status, run'.counts = run.counts.record status := by
  cases h with
  | stays => exact .inl ⟨rfl, rfl, rfl⟩
  | starts hs => exact .inl ⟨rfl, rfl, rfl⟩
  | records c r hc ha => exact .inr ⟨r.status, rfl⟩
  | completes | cancels =>
      rw [counts_ended]
      exact .inl ⟨rfl, rfl, rfl⟩
  | fails =>
      rw [counts_failed]
      exact .inl ⟨rfl, rfl, rfl⟩

/-- **One change takes a run forward.** -/
theorem Turns.advances (h : run.Turns now run' news) : run.Advances run' := by
  refine ⟨h.reaches, ?_, ?_, fun _ _ => h.result, fun ht => ?_⟩
  · rcases h.counts with ⟨hp, hf, -⟩ | ⟨status, e⟩
    · omega
    · rw [e, completed_record]
      omega
  · rcases h.counts with ⟨-, -, hp⟩ | ⟨status, e⟩
    · omega
    · rw [e, pending_record]
      omega
  · rw [(h.of_terminal ht).1]
    exact ⟨rfl, rfl⟩

end Run

namespace Supervisor

variable {s : Supervisor} {id : String} {run run' : Run} {m : Move} {h : List Move}

/-! ## 2. A stay in memory -/

/-- What a move makes of a run. -/
theorem turns_of_became {st st' : RunState} (hs : s.Sound) (hst : s.state? id = some st)
    (hb : s.Became m id st') : ∃ news, st.run.Turns s.now st'.run news := by
  cases hb with
  | kept _ hk _ =>
      rw [hst] at hk
      cases hk
      exact ⟨[], .stays⟩
  | registered run hm hid hp hn =>
      rw [hst] at hn
      cases hn
  | changed st₀ o t hm hst₀ hc hg =>
      rw [hst] at hst₀
      cases hst₀
      rw [run_outcome]
      exact ⟨t.news, RunState.turns_of_goes hg (hs.fits id st hst)⟩

theorem turns_of_held (hs : s.Sound) (hr : s.run? id = some run)
    (hr' : (s.perform m).run? id = some run') : ∃ news, run.Turns s.now run' news := by
  obtain ⟨st, hst, rfl⟩ := run?_eq_some.mp hr
  obtain ⟨st', hst', rfl⟩ := run?_eq_some.mp hr'
  exact turns_of_became hs hst (became_of_state? hst')

/-- A run that comes into memory was just registered. -/
theorem registered_of_none (hn : s.run? id = none) (hr : (s.perform m).run? id = some run) :
    m = .register run ∧ run.status = .pending := by
  have hn := run?_eq_none.mp hn
  obtain ⟨st, hst, rfl⟩ := run?_eq_some.mp hr
  cases became_of_state? hst with
  | kept _ h _ =>
      rw [hn] at h
      cases h
  | registered run hm _ hp _ => exact ⟨hm, hp⟩
  | changed _ _ _ _ h _ _ =>
      rw [hn] at h
      cases h

theorem stay_of_none (hn : s.run? id = none) (h : List Move) : s.stay id h = [] := by
  cases h with
  | nil =>
      unfold stay
      rw [hn]
      rfl
  | cons m h =>
      unfold stay
      rw [hn]

theorem stay_nil (hr : s.run? id = some run) : s.stay id [] = [run] := by
  rw [stay, hr]
  rfl

/-- **One move of a stay**: the run is still there, or it has left memory at rest. -/
theorem stay_step {st : RunState} (hs : s.Sound) (hst : s.state? id = some st) (m : Move) :
    ∃ st', s.Became m id st' ∧
      ((s.perform m).state? id = some st' ∧
          (∀ h, s.stay id (m :: h) = st.run :: (s.perform m).stay id h) ∨
        (s.perform m).state? id = none ∧ st'.AtRest ∧ s.parting? id m = some st'.run ∧
          ∀ h, s.stay id (m :: h) = [st.run, st'.run]) := by
  have hr := run?_of_state? hst
  cases hm : (s.perform m).state? id with
  | some st' =>
      have hr' := run?_of_state? hm
      refine ⟨st', became_of_state? hm, .inl ⟨rfl, fun h => ?_⟩⟩
      rw [stay, hr]
      simp [hr']
  | none =>
      obtain ⟨st', hb, hrest, hp⟩ := parted_of_left hs hst hm
      have hr' := run?_eq_none.mpr hm
      refine ⟨st', hb, .inr ⟨rfl, hrest, hp, fun h => ?_⟩⟩
      rw [stay, hr]
      simp [hr', hp]

/-- A stay begins with the run as it is. -/
theorem head?_stay (hs : s.Sound) (h : List Move) : (s.stay id h).head? = s.run? id := by
  cases hst : s.state? id with
  | none =>
      have hn := run?_eq_none.mpr hst
      rw [stay_of_none hn, hn, List.head?_nil]
  | some st =>
      have hr := run?_of_state? hst
      rw [hr]
      cases h with
      | nil => rw [stay_nil hr, List.head?_cons]
      | cons m h =>
          obtain ⟨st', -, ⟨-, e⟩ | ⟨-, -, -, e⟩⟩ := stay_step hs hst m
          · rw [e, List.head?_cons]
          · rw [e, List.head?_cons]

/-- **A stay goes from change to change.** -/
theorem isChain_stay (hs : s.Sound) (h : List Move) :
    (s.stay id h).IsChain Run.Becomes := by
  induction h generalizing s with
  | nil =>
      unfold stay
      cases s.run? id with
      | none => exact .nil
      | some run => exact .singleton run
  | cons m h ih =>
      cases hst : s.state? id with
      | none =>
          rw [stay_of_none (run?_eq_none.mpr hst)]
          exact .nil
      | some st =>
          obtain ⟨st', hb, hstay⟩ := stay_step hs hst m
          obtain ⟨news, ht⟩ := turns_of_became hs hst hb
          rcases hstay with ⟨hst', e⟩ | ⟨-, -, -, e⟩
          · have hs' := sound_perform hs m
            rw [e]
            refine List.isChain_cons.mpr ⟨fun run' hrun' => ?_, ih hs'⟩
            rw [head?_stay hs', run?_of_state? hst'] at hrun'
            cases hrun'
            exact ⟨s.now, news, ht⟩
          · rw [e]
            exact List.isChain_pair.mpr ⟨s.now, news, ht⟩

/-- **A run goes forward all through its stay.** -/
theorem pairwise_stay (hs : s.Sound) (h : List Move) :
    (s.stay id h).Pairwise Run.Advances := by
  refine List.isChain_iff_pairwise.mp ((isChain_stay hs h).imp ?_)
  rintro run run' ⟨now, news, ht⟩
  exact ht.advances

/-- A run to which nothing happens is as it is all through its stay. -/
theorem eq_of_mem_stay {st : RunState} (hs : s.Sound) (hst : s.state? id = some st)
    (hstill : ∀ o, Move.occur id o ∉ h) (hr : run ∈ s.stay id h) : run = st.run := by
  induction h generalizing s st with
  | nil =>
      rw [stay_nil (run?_of_state? hst)] at hr
      exact List.mem_singleton.mp hr
  | cons m h ih =>
      obtain ⟨st', hb, hstay⟩ := stay_step hs hst m
      have hsame : st'.run = st.run := by
        cases hb with
        | kept _ hst' _ =>
            rw [hst] at hst'
            cases hst'
            rfl
        | registered _ _ _ _ hn =>
            rw [hst] at hn
            cases hn
        | changed _ o _ hm _ _ _ => exact absurd (hm ▸ List.mem_cons_self) (hstill o)
      rcases hstay with ⟨hst', e⟩ | ⟨-, -, -, e⟩
      · rw [e] at hr
        rcases List.mem_cons.mp hr with rfl | hr
        · rfl
        · rw [← hsame]
          exact ih (sound_perform hs m) hst' (fun o ho => hstill o (List.mem_cons_of_mem _ ho)) hr
      · rw [e, hsame] at hr
        simpa using hr

/-- A run that has ended is as it is for the rest of its stay. -/
theorem run?_of_holds (hs : s.Sound) (hr : s.run? id = some run)
    (ht : run.status.isTerminal = true) (hh : s.Holds id h) : (s.after h).run? id = some run := by
  induction h generalizing s with
  | nil => exact hr
  | cons m h ih =>
      have hh' := hh.2
      have hsome : ((s.perform m).run? id).isSome = true := by
        cases h with
        | nil => exact hh'
        | cons m' h => exact hh'.1
      obtain ⟨run', hr'⟩ := Option.isSome_iff_exists.mp hsome
      obtain ⟨news, hturn⟩ := turns_of_held hs hr hr'
      rw [(hturn.of_terminal ht).1] at hr'
      exact ih (sound_perform hs m) hr' hh'

/-! ## 3. From the end of a history -/

/-- A run that is in memory all through a history is there at its end. -/
theorem isSome_of_holds (hh : s.Holds id h) : ((s.after h).run? id).isSome = true := by
  induction h generalizing s with
  | nil => exact hh
  | cons m h ih => exact ih hh.2

theorem holds_concat : s.Holds id (h ++ [m]) ↔
    s.Holds id h ∧ ((s.after (h ++ [m])).run? id).isSome = true := by
  induction h generalizing s with
  | nil => exact Iff.rfl
  | cons m' h ih =>
      show (s.run? id).isSome = true ∧ (s.perform m').Holds id (h ++ [m]) ↔ _
      rw [ih, ← and_assoc]
      rfl

/-- **What a run has been** before the last move, or is after it. -/
theorem hasBeen_concat {status : RunStatus} : s.HasBeen id (h ++ [m]) status ↔
    (∃ run, (s.after (h ++ [m])).run? id = some run ∧ run.status = status) ∨
      s.HasBeen id h status ∧ ((s.after (h ++ [m])).run? id).isSome = true := by
  constructor
  · rintro ⟨h₁, h₂, e, ⟨run, hr, hst⟩, hh⟩
    rcases List.eq_nil_or_concat' h₂ with rfl | ⟨h₂, m', rfl⟩
    · rw [List.append_nil] at e
      subst e
      exact .inl ⟨run, hr, hst⟩
    · rw [← List.append_assoc] at e
      obtain ⟨rfl, hm⟩ := List.append_inj' e rfl
      obtain rfl : m = m' := List.head_eq_of_cons_eq hm
      obtain ⟨hh, hend⟩ := holds_concat.mp hh
      refine .inr ⟨⟨h₁, h₂, rfl, ⟨run, hr, hst⟩, hh⟩, ?_⟩
      rwa [← after_append, ← List.append_assoc] at hend
  · rintro (⟨run, hr, hst⟩ | ⟨⟨h₁, h₂, rfl, hr, hh⟩, hend⟩)
    · refine ⟨h ++ [m], [], (List.append_nil _).symm, ⟨run, hr, hst⟩, ?_⟩
      show ((s.after (h ++ [m])).run? id).isSome = true
      rw [hr]
      rfl
    · refine ⟨h₁, h₂ ++ [m], (List.append_assoc _ _ _), hr, holds_concat.mpr ⟨hh, ?_⟩⟩
      rwa [← after_append, ← List.append_assoc]

theorem registered_append (h h' : List Move) : Move.registered (h ++ h') =
    Move.registered h ++ Move.registered h' := by
  unfold Move.registered
  rw [List.filterMap_append]

/-- **What holds of every run that is registered and is kept in every change holds of every run in
    memory.** -/
theorem held_induction {P : Run → Prop} (settings : Settings) (archive : Archive) (now : Instant)
    (hturn : ∀ run now run' news, Run.Turns run now run' news → P run → P run')
    (hreg : ∀ run ∈ Move.registered h, run.status = .pending → P run)
    (hr : ((new settings archive now).after h).run? id = some run) : P run := by
  have hs (h : List Move) := sound_after (sound_new settings archive now) h
  induction h using List.reverseRecOn generalizing run with
  | nil => cases hr
  | append_singleton h m ih =>
      rw [registered_append] at hreg
      have ih {run} (hr : ((new settings archive now).after h).run? id = some run) : P run :=
        ih (fun run' hm => hreg run' (List.mem_append_left _ hm)) hr
      rw [after_append] at hr
      cases hk : ((new settings archive now).after h).run? id with
      | some run₀ =>
          obtain ⟨news, ht⟩ := turns_of_held (hs h) hk hr
          exact hturn _ _ _ _ ht (ih hk)
      | none =>
          obtain ⟨rfl, hp⟩ := registered_of_none hk hr
          exact hreg run (List.mem_append_right _ (List.mem_singleton_self run)) hp

/-- The run is in memory, or has left it. -/
def HasHad (s : Supervisor) (run : Run) : Prop :=
  (∃ id, s.run? id = some run) ∨ ∃ st ∈ s.evicted, st.run = run

/-- What holds of every run that is registered and is kept in every change holds also of every run that
    has left memory, as it was then. -/
theorem hasHad_induction {P : Run → Prop} (settings : Settings) (archive : Archive) (now : Instant)
    (hturn : ∀ run now run' news, Run.Turns run now run' news → P run → P run')
    (hreg : ∀ run ∈ Move.registered h, run.status = .pending → P run)
    (hr : ((new settings archive now).after h).HasHad run) : P run := by
  rcases hr with ⟨id, hr⟩ | ⟨st, hl, rfl⟩
  · exact held_induction settings archive now hturn hreg hr
  induction h using List.reverseRecOn generalizing st with
  | nil => cases hl
  | append_singleton h m ih =>
      rw [registered_append] at hreg
      have hreg' : ∀ run ∈ Move.registered h, run.status = .pending → P run :=
        fun run hm => hreg run (List.mem_append_left _ hm)
      have hheld {k : String} {st : RunState} (hst : ((new settings archive now).after h).state? k = some st) :
          P st.run := held_induction settings archive now hturn hreg' (run?_of_state? hst)
      rw [after_append, after_cons, after_nil] at hl
      by_cases hp : ((new settings archive now).after h).Parts m
      · obtain ⟨id, o, t, rfl, hc, hk, hleaves⟩ := hp
        rw [perform_of_some hc, evicted_take (isSome_of_change? hc) hk hleaves] at hl
        rcases List.mem_append.mp hl with hl | hl
        · exact ih hreg' st hl
        · obtain ⟨k, -, hst⟩ := List.mem_filterMap.mp hl
          split at hst
          · -- the run that changes leaves memory in the same move, as it is after the change
            cases hst
            obtain ⟨st₀, hst₀, hg⟩ := change?_eq_some hc
            obtain ⟨news, ht⟩ := turns_of_became (sound_after (sound_new settings archive now) h) hst₀
              (.changed st₀ o t rfl hst₀ hc hg)
            exact hturn _ _ _ _ ht (hheld hst₀)
          · exact hheld hst
      · rw [(queue_of_not_parts hp).2] at hl
        exact ih hreg' st hl

/-! ## 4. Cancelling -/

/-- A request to cancel is one move. -/
theorem revoke_snd (s : Supervisor) (id : String) : (s.revoke id).2 = s.perform (.occur id .cancel) := by
  unfold revoke
  cases hc : s.change? id .cancel with
  | none => exact (perform_of_none hc).symm
  | some t =>
      rw [perform_of_some hc]
      simp only
      cases hk : s.take t with
      | mk fault s' => cases fault <;> rfl

/-- A run that is cancelled changes to being so. -/
theorem change?_cancel (h : s.change? id .cancel = some t) :
    ∃ st, s.state? id = some st ∧ st.run.isOpen = true ∧ t = st.isCancelled s.now := by
  obtain ⟨st, hst, hg⟩ := change?_eq_some h
  cases hg with
  | cancel ho => exact ⟨st, hst, ho, rfl⟩

/-- A request is answered with yes only where there was something to cancel. -/
theorem change?_of_revoke (h : (s.revoke id).1 = .ok true) :
    ∃ t, s.change? id .cancel = some t := by
  unfold revoke at h
  cases hc : s.change? id .cancel with
  | none =>
      rw [hc] at h
      cases h
  | some t => exact ⟨t, rfl⟩

/-- There is nothing to cancel about a run that has ended. -/
theorem revoke_of_terminal (hr : s.run? id = some run) (ht : run.status.isTerminal = true) :
    (s.revoke id).1 = .ok false := by
  have hc : s.change? id .cancel = none := by
    cases hc : s.change? id .cancel with
    | none => rfl
    | some t =>
        obtain ⟨st, hst, ho, -⟩ := change?_cancel hc
        obtain ⟨st', hst', rfl⟩ := run?_eq_some.mp hr
        rw [hst] at hst'
        cases hst'
        exact absurd ht (Run.not_isTerminal ho)
  unfold revoke
  rw [hc]

/-- A run that was cancelled is cancelled as long as it is in memory, and cannot be cancelled again. -/
theorem cancelled_of_revoke (hs : s.Sound) (ha : (s.revoke id).1 = .ok true)
    (hh : (s.revoke id).2.Holds id h) :
    (∃ run, ((s.revoke id).2.after h).run? id = some run ∧ run.status = .cancelled) ∧
      (((s.revoke id).2.after h).revoke id).1 = .ok false := by
  rw [revoke_snd] at hh ⊢
  obtain ⟨t, hc⟩ := change?_of_revoke ha
  obtain ⟨st, hst, -, rfl⟩ := change?_cancel hc
  have hsome : ((s.perform (.occur id .cancel)).run? id).isSome = true := by
    cases h with
    | nil => exact hh
    | cons m h => exact hh.1
  obtain ⟨run, hr⟩ := Option.isSome_iff_exists.mp hsome
  have hcan : run.status = .cancelled := by
    obtain ⟨st', hst', rfl⟩ := run?_eq_some.mp hr
    rw [perform_of_some hc, state?_take_of_change? hc] at hst'
    split at hst'
    · cases hst'
    · rw [if_pos rfl] at hst'
      cases hst'
      rw [run_outcome]
      rfl
  have ht : run.status.isTerminal = true := by rw [hcan]; rfl
  have hend := run?_of_holds (sound_perform hs _) hr ht hh
  exact ⟨⟨run, hend, hcan⟩, revoke_of_terminal hend ht⟩

end Supervisor

end StepRunner
