import StepRunner.Proofs.Case.Verdict
import StepRunner.Proofs.Number.Millionths
import StepRunner.Proofs.Supervisor.Lifetime

/-!
# Durations

The duration of a case, and that of a run, is the time between two moments in whole milliseconds, by way of seconds
in binary64. Of a time that has a fraction of a millisecond the fraction is dropped; of one that has none the last
millisecond may be lost.

* `millisecondsSince_eq`: the time between two moments is a thousand times a quotient of microseconds;
* `tells_millisecondsSince`: when it is told exactly, and what it comes to (`Tells`);
* `timed_of_hasHad`: a run that has ended has a duration from its start, or from its creation where it never started;
* `durations_recorded`: what is recorded of a case and of a run.
-/

namespace StepRunner

open Number Binary64

/-! ## 1. The time between two moments -/

/-- The end of the calendar. -/
def Instant.calendarEnd : Nat := Date.daysBeforeYear 10000 * Instant.dayLength

/-- From one moment to a later one, or the same, in microseconds. -/
def Instant.elapsed (start finish : Instant) : Nat := finish.micros - start.micros

/-- Two moments of the calendar, the one not after the other. -/
structure Instant.Spans (start finish : Instant) : Prop where
  le : start.micros ≤ finish.micros
  within : finish.micros < Instant.calendarEnd

/-- A number of milliseconds tells so many microseconds: exactly if they are not lost on the way, and for some 272
    years it is one less at most, where it is for a whole number of milliseconds that falls short. -/
structure Tells (n : Int) (d : Nat) : Prop where
  exact_iff : n = (d / 1000 : Nat) ↔ Told d
  eq_of_lt : d < 1000000 * twoTo 33 → n = (d / 1000 - if 1000 ∣ d ∧ FallsShort (d / 1000) then 1 else 0 : Nat)

variable {start finish : Instant}

theorem millisecondsSince_eq (h : start.micros ≤ finish.micros) :
    start.millisecondsSince finish = ((thousandfold (start.elapsed finish) 1000000).truncate?).getD 0 := by
  have hsince : start.microsSince finish = (start.elapsed finish : Int) := (Int.ofNat_sub h).symm
  have hsign : decide ((start.elapsed finish : Int) < 0) = false := decide_eq_false (by omega)
  unfold Instant.millisecondsSince Instant.secondsSince
  rw [hsince]
  dsimp only
  rw [hsign, Int.natAbs_natCast]
  rfl

theorem elapsed_lt (h : start.Spans finish) : start.elapsed finish < 1000000 * twoTo 42 := by
  have hend : Instant.calendarEnd ≤ 1000000 * twoTo 42 := by decide +kernel
  exact ((Nat.sub_le _ _).trans_lt h.within).trans_le hend

/-- **What the time between two moments is told as.** -/
theorem tells_millisecondsSince (h : start.Spans finish) :
    Tells (start.millisecondsSince finish) (start.elapsed finish) := by
  have htop := elapsed_lt h
  rw [millisecondsSince_eq h.le]
  generalize start.elapsed finish = d at htop ⊢
  refine ⟨?_, fun hsmall => by rw [truncate?_millionths hsmall, Option.getD_some]⟩
  rw [← truncate?_millionths_iff htop]
  cases ht : (thousandfold d 1000000).truncate? with
  | some n => exact ⟨fun hn => congrArg some hn, fun hn => Option.some.inj hn⟩
  | none =>
      refine iff_of_false (fun hzero => ?_) nofun
      -- less than a millisecond is always told
      have hlt : d < 1000 := by
        have hzero : (0 : Int) = (d / 1000 : Nat) := hzero
        omega
      rw [truncate?_millionths (hlt.trans (by decide))] at ht
      cases ht

/-! ## 2. Runs that have ended -/

/-- The run has ended at a moment, and took as long as from its start, or from its creation where it never started. -/
def Run.Timed (run : Run) : Prop :=
  ∃ t, run.completedAt = some t ∧ run.counts.duration = run.origin.millisecondsSince t

/-- **A change that ends a run** gives it its duration. -/
theorem Run.Turns.timed {run run' : Run} {now : Instant} {news : List Happening} (h : run.Turns now run' news)
    (hrun : run.status.isTerminal = true → run.Timed) (hend : run'.status.isTerminal = true) : run'.Timed := by
  cases h with
  | stays => exact hrun hend
  | starts hs => cases hend
  | records c r hc ha =>
      have hend : run.status.isTerminal = true := hend
      rw [running_of_awaits ha] at hend
      cases hend
  | completes | fails | cancels => exact ⟨now, rfl, rfl⟩

/-- **Every run that has ended** in a history has its duration. -/
theorem timed_of_hasHad {run : Run} {h : List Move} (settings : Settings) (archive : Archive) (now : Instant)
    (hr : ((Supervisor.new settings archive now).after h).HasHad run) (hend : run.status.isTerminal = true) :
    run.Timed := by
  refine Supervisor.hasHad_induction (P := fun run => run.status.isTerminal = true → run.Timed) settings archive now
    (fun _ _ _ _ ht hrun hend => ht.timed hrun hend) (fun run _ hp hend => ?_) hr hend
  rw [hp] at hend
  cases hend

/-! ## 3. What is recorded -/

/-- The result of a case has the moments at which it was begun and ended, and the time between them. -/
theorem times_of_runCase {σ : Type} {e : Executor} {b : Browser σ} {c : TestCase} {d d' : Drive σ} {r : CaseResult}
    (h : (runCase e b c).run d = (.ok r, d')) :
    r.startedAt = d.now ∧ r.completedAt = d'.now ∧ r.duration = d.now.millisecondsSince d'.now := by
  rw [runCase, run_runCaseBy] at h
  obtain ⟨v, d₁, -, hresult⟩ := run_bind_eq_ok.mp h
  rw [run_bind_get] at hresult
  cases hresult
  exact ⟨rfl, rfl, rfl⟩

/-- **The durations that are recorded**, of every case that has a result and of every run that has ended, in every
    history: the whole milliseconds between the two moments, exactly if they are told. -/
theorem durations_recorded {σ : Type} (e : Executor) (b : Browser σ) (c : TestCase) (d : Drive σ)
    (settings : Settings) (archive : Archive) (now : Instant) (h : List Move) :
    (∀ (r : CaseResult) (d' : Drive σ), (runCase e b c).run d = (.ok r, d') →
      r.startedAt = d.now ∧ r.completedAt = d'.now ∧
        (d.now.Spans d'.now → Tells r.duration (d.now.elapsed d'.now))) ∧
    ∀ run : Run, ((Supervisor.new settings archive now).after h).HasHad run → run.status.isTerminal = true →
      ∃ t, run.completedAt = some t ∧ (run.origin.Spans t → Tells run.counts.duration (run.origin.elapsed t)) := by
  refine ⟨fun r d' hcase => ?_, fun run hr hend => ?_⟩
  · obtain ⟨hstart, hfinish, hduration⟩ := times_of_runCase hcase
    refine ⟨hstart, hfinish, fun hspans => ?_⟩
    rw [hduration]
    exact tells_millisecondsSince hspans
  · obtain ⟨t, ht, hduration⟩ := timed_of_hasHad settings archive now hr hend
    refine ⟨t, ht, fun hspans => ?_⟩
    rw [hduration]
    exact tells_millisecondsSince hspans

/-- A browser that takes a second and a millisecond to start. -/
def slowStart : Browser Unit where
  respond _ c := ({ elapsed := if c = .start then 1001000 else 0 }, ())

/-- A case of one step. -/
def visit : TestCase := { id := "c1", title := "Visit", steps := ["Go to https://shop.test"] }

/-- A history in which the run passes a second and a millisecond after its start. -/
def passingLate : List Move :=
  [ .register (Sample.run 60000), .occur Sample.runId .launch, .occur Sample.runId .begin,
    .occur Sample.runId .openPool, .occur Sample.runId .fill,
    .occur Sample.runId (.handIn "c1" (.result Sample.pass)), .occur Sample.runId (.collect "c1"),
    .clock ⟨1001000⟩, .occur Sample.runId .complete ]

/-- **A second and a millisecond** is recorded as a second, of a case and of a run. -/
theorem durations_recorded_short :
    (∃ r d', (runCase {} slowStart visit).run { browser := (), now := ⟨0⟩ } = (.ok r, d') ∧
      r.completedAt = ⟨1001000⟩ ∧ r.duration = 1000) ∧
    ∃ run, ((Supervisor.new { retainedRuns := 1 } (Sample.archive fun _ => none) ⟨0⟩).after passingLate).HasHad run ∧
      run.startedAt = some ⟨0⟩ ∧ run.completedAt = some ⟨1001000⟩ ∧ run.counts.duration = 1000 := by
  have hspans : (⟨0⟩ : Instant).Spans ⟨1001000⟩ := ⟨by decide, by decide +kernel⟩
  have hshort {n : Int} (h : Tells n ((⟨0⟩ : Instant).elapsed ⟨1001000⟩)) : n = 1000 :=
    (h.eq_of_lt (by decide)).trans (by decide +kernel)
  obtain ⟨hcase, hruns⟩ := durations_recorded {} slowStart visit { browser := (), now := ⟨0⟩ } { retainedRuns := 1 }
    (Sample.archive fun _ => none) ⟨0⟩ passingLate
  refine ⟨?_, ?_⟩
  · have hfound : (((runCase {} slowStart visit).run { browser := (), now := ⟨0⟩ }).1.toOption.map
        fun r => r.completedAt) = some ⟨1001000⟩ := by decide +kernel
    cases hrun : (runCase {} slowStart visit).run { browser := (), now := ⟨0⟩ } with
    | mk o d' =>
        rw [hrun] at hfound
        cases o with
        | error f => cases hfound
        | ok r =>
            have hr : r.completedAt = ⟨1001000⟩ := Option.some.inj hfound
            obtain ⟨-, hfinish, htells⟩ := hcase r d' hrun
            rw [← hfinish, hr] at htells
            exact ⟨r, d', rfl, hr, hshort (htells hspans)⟩
  · have hfound : (((Supervisor.new { retainedRuns := 1 } (Sample.archive fun _ => none) ⟨0⟩).after passingLate).run?
        Sample.runId).map (fun run => (run.status, run.startedAt, run.completedAt)) =
          some (.completed, some ⟨0⟩, some ⟨1001000⟩) := by decide +kernel
    obtain ⟨run, hrun, hends⟩ := Option.map_eq_some_iff.mp hfound
    obtain ⟨hstatus, hstart, hfinish⟩ : run.status = .completed ∧ run.startedAt = some ⟨0⟩ ∧
        run.completedAt = some ⟨1001000⟩ := by simpa using hends
    obtain ⟨t, ht, htells⟩ := hruns run (.inl ⟨_, hrun⟩) (by rw [hstatus]; rfl)
    obtain rfl := Option.some.inj (hfinish.symm.trans ht)
    have horigin : run.origin = ⟨0⟩ := by rw [Run.origin, hstart]; rfl
    rw [horigin] at htells
    exact ⟨run, .inl ⟨_, hrun⟩, hstart, hfinish, hshort (htells hspans)⟩

end StepRunner
