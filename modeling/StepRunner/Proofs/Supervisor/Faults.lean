import StepRunner.Proofs.Number.Binary64
import StepRunner.Proofs.Supervisor.Lifetime
import StepRunner.Proofs.Supervisor.Observers

/-!
# What faults leave behind

A run for which nobody has to wait any more should have ended, and a run that has ended should have no
open stream. This module says exactly when that is not so.

* `TimeLimit.IsBeyond`: a time limit that is beyond the binary64 format;
* `Supervisor.Strands`: a move after which the dispatch of a running run is over: its start cannot be
  saved, or there is no moment for its time limit. It takes a request to cancel to end the run then;
* `Supervisor.Silences`: a move that ends a run and whose save breaks, so that its observers are not told;
  they have to leave by themselves then;
* `left_behind_iff`: the two are the only reasons.
-/

namespace StepRunner

/-! ## 1. Time limits beyond the format -/

open Number in
/-- The limit rounds to no finite number of the binary64 format. -/
def TimeLimit.IsBeyond (l : TimeLimit) : Prop := twoTo 1024 ≤ l.value + twoTo 970

/-- Just these limits are reached at no moment. -/
theorem TimeLimit.deadline?_eq_none_iff {l : TimeLimit} {now : Instant} :
    l.deadline? now = none ↔ l.IsBeyond := by
  refine Iff.trans ?_ (Binary64.isInfinite_ofInt l.value)
  unfold deadline?
  split
  · next h => exact ⟨fun _ => h, fun _ => rfl⟩
  · next h => exact ⟨nofun, fun h' => absurd h' h⟩

namespace Supervisor

variable {s : Supervisor} {id : String} {st st' : RunState} {t : Change} {m q : Move} {n : Nat}
  {o : Occasion} {run : Run} {h : List Move} {P : Supervisor → Move → Prop}

/-! ## 2. Moves that leave something behind -/

/-- The dispatch of a run is over with the move, and the run is not. -/
def Strands (id : String) (s : Supervisor) (m : Move) : Prop :=
  m = .occur id .begin ∧ s.Breaks m ∨
    m = .occur id .openPool ∧ ∃ st, s.state? id = some st ∧ st.dispatch = .begun ∧
      st.run.isOpen = true ∧ st.run.config.timeLimit.IsBeyond

/-- The run ends with the move, and a subscriber of it is not told. -/
def Silences (id : String) (n : Nat) (s : Supervisor) (m : Move) : Prop :=
  (∃ run, s.run? id = some run ∧ run.isOpen = true) ∧
    (∃ run, (s.perform m).run? id = some run ∧ run.status.isTerminal = true) ∧
    s.Breaks m ∧ n ∈ s.broadcaster.subscribers id

/-- A move of a history was of some kind; the run has been in memory since, and another move has not
    come since. -/
def Since (s : Supervisor) (id : String) (h : List Move) (P : Supervisor → Move → Prop)
    (q : Move) : Prop :=
  ∃ h₁ m h₂, h = h₁ ++ m :: h₂ ∧ P (s.after h₁) m ∧ ((s.after h₁).perform m).Holds id h₂ ∧ q ∉ h₂

/-- **From the end of a history**: the last move was of the kind, or an earlier one was and the last did
    not undo it. -/
theorem since_concat : s.Since id (h ++ [m]) P q ↔
    ((s.after (h ++ [m])).run? id).isSome = true ∧
      (P (s.after h) m ∨ m ≠ q ∧ s.Since id h P q) := by
  constructor
  · rintro ⟨h₁, m', h₂, e, hp, hh, hq⟩
    refine ⟨?_, ?_⟩
    · have := isSome_of_holds hh
      rwa [← after_cons, ← after_append, ← e] at this
    · rcases List.eq_nil_or_concat' h₂ with rfl | ⟨h₂, m'', rfl⟩
      · obtain ⟨rfl, hm⟩ := List.append_inj' e rfl
        obtain rfl : m = m' := List.head_eq_of_cons_eq hm
        exact .inl hp
      · rw [← List.cons_append, ← List.append_assoc] at e
        obtain ⟨rfl, hm⟩ := List.append_inj' e rfl
        obtain rfl : m = m'' := List.head_eq_of_cons_eq hm
        rw [List.mem_append, List.mem_singleton, not_or] at hq
        exact .inr ⟨Ne.symm hq.2, h₁, m', h₂, rfl, hp, (holds_concat.mp hh).1, hq.1⟩
  · rintro ⟨hend, hp | ⟨hm, h₁, m', h₂, rfl, hp, hh, hq⟩⟩
    · refine ⟨h, m, [], rfl, hp, ?_, List.not_mem_nil⟩
      rwa [after_append] at hend
    · refine ⟨h₁, m', h₂ ++ [m], by simp, hp, holds_concat.mpr ⟨hh, ?_⟩, ?_⟩
      · rwa [← after_cons, ← after_append, ← List.cons_append, ← List.append_assoc]
      · rw [List.mem_append, List.mem_singleton, not_or]
        exact ⟨hq, Ne.symm hm⟩

theorem isSome_of_since (hs : s.Since id h P q) : ((s.after h).run? id).isSome = true := by
  obtain ⟨h₁, m, h₂, rfl, -, hh, -⟩ := hs
  have := isSome_of_holds hh
  rwa [← after_cons, ← after_append] at this

/-- A change breaks if its save does. -/
theorem breaks_of_change? (hc : s.change? id o = some t) :
    s.Breaks (.occur id o) ↔ (s.keep t).1.isSome = true := by
  unfold Breaks handsOver keep
  simp only [hc, Option.bind_some]
  cases hsave : t.saved with
  | true => simp
  | false => simp

theorem not_breaks_of_none (hc : s.change? id o = none) : ¬ s.Breaks (.occur id o) := by
  rintro ⟨run, hr, -⟩
  simp only [handsOver, hc, Option.bind_none] at hr
  cases hr

theorem keep_of_not_breaks {o : Occasion} (hc : s.change? id o = some t)
    (hb : ¬ s.Breaks (.occur id o)) : (s.keep t).1 = none := by
  rw [breaks_of_change? hc] at hb
  simpa using hb

theorem unbroken_append {h₁ h₂ : List Move} :
    s.Unbroken (h₁ ++ h₂) ↔ s.Unbroken h₁ ∧ (s.after h₁).Unbroken h₂ := by
  induction h₁ generalizing s with
  | nil => exact (true_and _).symm ▸ Iff.rfl
  | cons m h₁ ih =>
      show ¬ s.Breaks m ∧ (s.perform m).Unbroken (h₁ ++ h₂) ↔
        (¬ s.Breaks m ∧ (s.perform m).Unbroken h₁) ∧ _
      rw [ih, and_assoc]
      rfl

/-! ## 3. Stranded runs -/

/-- A move that strands a run changes it. -/
theorem change?_of_strands (hp : Strands id s m) : ∃ o t, m = .occur id o ∧ s.change? id o = some t := by
  rcases hp with ⟨rfl, hb⟩ | ⟨rfl, st, hst, hd, -⟩
  · cases hc : s.change? id .begin with
    | none => exact absurd hb (not_breaks_of_none hc)
    | some t => exact ⟨.begin, t, rfl, hc⟩
  · refine ⟨.openPool, st.opens s.settings s.now, rfl, ?_⟩
    rw [change?_of_state? hst, RunState.on.eq_def, hd]

/-- A change strands its run if its start cannot be saved, or there is no moment for its time limit. -/
theorem strands_occur (hst : s.state? id = some st) (hc : s.change? id o = some t)
    (hg : st.Goes s.now o t) : Strands id s (.occur id o) ↔
      o = .begin ∧ (s.keep t).1.isSome = true ∨
      o = .openPool ∧ st.run.isOpen = true ∧ st.run.config.timeLimit.IsBeyond := by
  unfold Strands
  rw [breaks_of_change? hc, Move.occur.injEq, Move.occur.injEq]
  refine or_congr (by simp) ⟨?_, ?_⟩
  · rintro ⟨⟨-, ho⟩, st', hst', -, hrest⟩
    rw [hst] at hst'
    cases hst'
    exact ⟨ho, hrest⟩
  · rintro ⟨rfl, hrest⟩
    refine ⟨⟨rfl, rfl⟩, st, hst, ?_, hrest⟩
    cases hg with
    | openPool _ _ _ hd _ => exact hd
    | openNone _ _ _ hd _ => exact hd
    | openNever _ hd _ => exact hd

/-- A run that can be cancelled is open. -/
theorem change?_cancel_of_isOpen (hst : s.state? id = some st) (ho : st.run.isOpen = true) :
    s.change? id .cancel = some (st.isCancelled s.now) := by
  rw [change?_of_state? hst, RunState.on.eq_def]
  simp [ho]

/-- **A run is stranded** exactly if a move has stranded it and it was not cancelled since. -/
theorem stranded_iff_since (settings : Settings) (archive : Archive) (now : Instant)
    (hst : ((new settings archive now).after h).state? id = some st) :
    st.Stranded ↔ (new settings archive now).Since id h (Strands id) (.occur id .cancel) := by
  induction h using List.reverseRecOn generalizing st with
  | nil => cases hst
  | append_singleton h m ih =>
      have hs := sound_after (sound_new settings archive now) h
      have hheld := isSome_run? hst
      rw [since_concat, and_iff_right hheld]
      rw [after_append] at hst
      cases became_of_state? hst with
      | kept _ hk hm =>
          rw [ih hk]
          have hp : ¬ Strands id ((new settings archive now).after h) m := fun hp => by
            obtain ⟨o, t, rfl, hc⟩ := change?_of_strands hp
            rw [hm o rfl] at hc
            cases hc
          refine ⟨fun hsince => .inr ⟨?_, hsince⟩, fun h => (h.resolve_left hp).2⟩
          rintro rfl
          have hrun := ((ih hk).mpr hsince).1
          have hc := hm .cancel rfl
          rw [change?_cancel_of_isOpen hk (Run.isOpen_of_running hrun)] at hc
          cases hc
      | registered run hm hid hpend hn =>
          have hrun : ¬ ({ run : RunState }).Stranded := fun hst => by
            have := hst.1
            rw [hpend] at this
            cases this
          refine ⟨fun h => absurd h hrun, ?_⟩
          rintro (hp | ⟨-, hsince⟩)
          · obtain ⟨o, t, rfl, hc⟩ := change?_of_strands hp
            cases hm
          · have := isSome_of_since hsince
            rw [run?_eq_none.mpr hn] at this
            cases this
      | changed st₀ o t hm hk hc hg =>
          subst hm
          rw [RunState.stranded_of_goes hg (hs.fits id st₀ hk), ih hk, TimeLimit.deadline?_eq_none_iff]
          have hne : Move.occur id o ≠ .occur id .cancel ↔ o ≠ .cancel := by simp
          rw [strands_occur hk hc hg, hne]
          exact or_comm.trans (or_congr_right and_comm)

/-- A run for which nobody has to wait has not ended exactly if it is stranded. -/
theorem stranded_iff_of_done (hs : s.Sound) (hst : s.state? id = some st) (hd : st.done = true) :
    ¬ st.run.status.isTerminal = true ↔ st.Stranded := by
  constructor
  · intro ht
    refine RunState.stranded_of_atRest (hs.fits id st hst) (hs.done id st hst hd) ?_
    rwa [Run.isOpen_iff, ← Bool.not_eq_true]
  · rintro ⟨hrun, -⟩ ht
    rw [hrun] at ht
    cases ht

/-- Where saves do not break, only a time limit beyond the format strands a run. -/
theorem isBeyond_of_became (hs : s.Sound) (hb : ¬ s.Breaks m)
    (hinv : ∀ st, s.state? id = some st → st.Stranded → st.run.config.timeLimit.IsBeyond)
    (hst' : s.Became m id st') (hstr : st'.Stranded) : st'.run.config.timeLimit.IsBeyond := by
  cases hst' with
  | kept _ hk _ => exact hinv _ hk hstr
  | registered run _ _ hp _ =>
      have hrun : run.status = .running := hstr.1
      rw [hp] at hrun
      cases hrun
  | changed st o t hm hk hc hg =>
      subst hm
      rw [run_outcome, (RunState.turns_of_goes hg (hs.fits id st hk)).config_eq]
      rcases (RunState.stranded_of_goes hg (hs.fits id st hk)).mp hstr with
        ⟨hst, -⟩ | ⟨-, hf⟩ | ⟨-, -, hl⟩
      · exact hinv st hk hst
      · rw [keep_of_not_breaks hc hb] at hf
        cases hf
      · exact TimeLimit.deadline?_eq_none_iff.mp hl

theorem isBeyond_after (hs : s.Sound) (hu : s.Unbroken h)
    (hinv : ∀ st, s.state? id = some st → st.Stranded → st.run.config.timeLimit.IsBeyond) :
    ∀ st, (s.after h).state? id = some st → st.Stranded → st.run.config.timeLimit.IsBeyond := by
  induction h generalizing s with
  | nil => exact hinv
  | cons m h ih =>
      refine ih (sound_perform hs m) hu.2 fun st hst => ?_
      exact isBeyond_of_became hs hu.1 hinv (became_of_state? hst)

/-! ## 4. Silenced observers -/

/-- A run that has been silenced has ended. -/
theorem terminal_of_since (hs : s.Sound) (hsince : s.Since id h (Silences id n) q) :
    ∃ run, (s.after h).run? id = some run ∧ run.status.isTerminal = true := by
  obtain ⟨h₁, m, h₂, rfl, ⟨-, ⟨run, hr, ht⟩, -⟩, hh, -⟩ := hsince
  refine ⟨run, ?_, ht⟩
  rw [after_append, after_cons]
  exact run?_of_holds (sound_perform (sound_after hs h₁) m) hr ht hh

/-- A change silences a subscriber if it ends the run, its save breaks, and the subscriber was there. -/
theorem silences_occur (hst : s.state? id = some st) (hc : s.change? id o = some t)
    (hr : (s.perform (.occur id o)).run? id = some t.next.run) (ho : st.run.isOpen = true)
    (ht : t.next.run.status.isTerminal = true) : Silences id n s (.occur id o) ↔
      (s.keep t).1.isSome = true ∧ n ∈ s.broadcaster.subscribers id := by
  unfold Silences
  rw [breaks_of_change? hc]
  refine ⟨fun h => h.2.2, fun h => ⟨⟨st.run, run?_of_state? hst, ho⟩, ⟨t.next.run, hr, ht⟩, h⟩⟩

/-- A run that has ended is not ended once more, so nobody misses an end of it. -/
theorem not_silences (hk : s.state? id = some st) (ho : st.run.isOpen = false) :
    ¬ Silences id n s m := by
  rintro ⟨⟨run, hr, hro⟩, -⟩
  rw [run?_of_state? hk] at hr
  cases hr
  rw [ho] at hro
  cases hro

/-- **A subscriber of a run that has ended is still there** exactly if it was not told of the end, and
    has not left since. -/
theorem mem_subscribers_iff_since (settings : Settings) (archive : Archive) (now : Instant)
    (hst : ((new settings archive now).after h).state? id = some st)
    (ht : st.run.status.isTerminal = true) :
    n ∈ ((new settings archive now).after h).broadcaster.subscribers id ↔
      (new settings archive now).Since id h (Silences id n) (.unsubscribe n) := by
  induction h using List.reverseRecOn generalizing st with
  | nil => cases hst
  | append_singleton h m ih =>
      have hs := sound_after (sound_new settings archive now) h
      have hheld := run?_of_state? hst
      rw [since_concat, hheld, Option.isSome_some, and_iff_right rfl]
      rw [after_append] at hst hheld ⊢
      have hopen : st.run.isOpen = false := Run.not_isOpen_iff.mpr ht
      cases became_of_state? hst with
      | kept _ hk hm =>
          show n ∈ (((new settings archive now).after h).perform m).broadcaster.subscribers id ↔ _
          rw [mem_subscribers_of_kept hs hk hm, ih hk ht, hopen]
          have hp : ¬ Silences id n ((new settings archive now).after h) m := not_silences hk hopen
          simp only [hp, false_or, Bool.false_eq_true, false_and, and_false, or_false]
          exact and_comm
      | registered run hm hid hpend hn =>
          have ht : run.status.isTerminal = true := ht
          rw [hpend] at ht
          cases ht
      | changed st₀ o t hm hk hc hg =>
          subst hm
          show n ∈ (((new settings archive now).after h).perform (.occur id o)).broadcaster.subscribers
            id ↔ _
          rw [mem_subscribers_of_changed hs hc]
          rw [run_outcome] at hheld ht
          have hturn := RunState.turns_of_goes hg (hs.fits id st₀ hk)
          cases ho : st₀.run.isOpen with
          | true =>
              have hsince : ¬ (new settings archive now).Since id h (Silences id n) (.unsubscribe n) := by
                intro hsince
                obtain ⟨run, hr, hrt⟩ := terminal_of_since (sound_new settings archive now) hsince
                rw [run?_of_state? hk] at hr
                cases hr
                exact absurd hrt (Run.not_isTerminal ho)
              rw [silences_occur hk hc hheld ho ht, hturn.of_ends ho ht]
              cases (((new settings archive now).after h).keep t).1 with
              | none => simp [hsince]
              | some fault => simp [hsince]
          | false =>
              have ht₀ := Run.not_isOpen_iff.mp ho
              have hp : ¬ Silences id n ((new settings archive now).after h) (.occur id o) :=
                not_silences hk ho
              rw [ih hk ht₀, (hturn.of_terminal ht₀).2]
              simp [hp]

/-! ## 5. What is left behind -/

/-- **What faults leave behind**: a run for which nobody has to wait has ended, unless a move has
    stranded it and it was not cancelled since; and a run that has ended has no open stream, but of
    subscribers who were not told of the end, since its save broke, and have not left. -/
theorem left_behind_iff (settings : Settings) (archive : Archive) (now : Instant) (h : List Move)
    (id : String) (st : RunState) (hst : ((new settings archive now).after h).state? id = some st) :
    (st.done = true →
      (¬ st.run.status.isTerminal = true ↔
        (new settings archive now).Since id h (Strands id) (.occur id .cancel))) ∧
    (st.run.status.isTerminal = true → ∀ n,
      (n ∈ ((new settings archive now).after h).broadcaster.subscribers id ↔
        (new settings archive now).Since id h (Silences id n) (.unsubscribe n))) := by
  have hs := sound_after (sound_new settings archive now) h
  refine ⟨fun hd => ?_, fun ht n => mem_subscribers_iff_since settings archive now hst ht⟩
  rw [stranded_iff_of_done hs hst hd]
  exact stranded_iff_since settings archive now hst

/-- A run with a time limit beyond the format is stranded. -/
theorem left_behind_beyond : ∃ st,
    ((Sample.supervisor 1 fun _ => none).after Sample.lost).state? Sample.runId = some st ∧
      st.done = true ∧ ¬ st.run.status.isTerminal = true ∧
      (Sample.supervisor 1 fun _ => none).Since Sample.runId Sample.lost (Strands Sample.runId)
        (.occur Sample.runId .cancel) := by
  have hend : (((Sample.supervisor 1 fun _ => none).after Sample.lost).state? Sample.runId).map
      (fun st => (st.done, st.run.status)) = some (true, .running) := by decide +kernel
  obtain ⟨st, hst, hp⟩ := Option.map_eq_some_iff.mp hend
  obtain ⟨hd, hs⟩ := Prod.mk.inj hp
  have hopen : ¬ st.run.status.isTerminal = true := by simp [hs, RunStatus.isTerminal]
  have hiff := (left_behind_iff _ _ _ Sample.lost Sample.runId st hst).1 hd
  exact ⟨st, hst, hd, hopen, hiff.mp hopen⟩

/-- A run whose end cannot be saved, since the store is broken, leaves its observers behind. -/
theorem silenced_of_broken_store :
    let s := (Sample.supervisor 1 fun k => if k = 3 then some (.crashed "broken") else none).after
      [.register (Sample.run 1000), .subscribe Sample.runId, .occur Sample.runId .launch,
        .occur Sample.runId .begin, .occur Sample.runId .cancel]
    (s.run? Sample.runId).map (·.status) = some .cancelled ∧
      s.broadcaster.subscribers Sample.runId = [0] := by
  decide +kernel

end Supervisor

end StepRunner
