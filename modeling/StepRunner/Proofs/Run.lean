import Mathlib.Data.List.Basic
import StepRunner.Event
import StepRunner.Proofs.Tables
import StepRunner.Run.Progress

/-!
# Runs and their results

How the table of results answers after a result has been put into it, and what one change can make of a
run.

* `CaseResults.result?_put`: the table has the new result, and every other one as before;
* `Run.awaits_recorded`: a run that has recorded a result awaits that case no more;
* `Run.Turns`: what can become of a run in one change, and what its observers are told then; `Run.Becomes`
  leaves the news out.
-/

namespace StepRunner

/-! ## 1. The table of results -/

namespace CaseResults

theorem lookup_put (rs : CaseResults) (id k : String) (r : CaseResult) :
    (rs.put id r).lookup k = if k = id then some (some r) else rs.lookup k := by
  refine lookup_of_put (fun rs => put rs id r) rfl (fun i v rest => ?_) rs k
  show (if i = id then (i, some r) :: rest else (i, v) :: put rest id r) = _
  split
  · next h => rw [h]
  · rfl

/-- **The results after one more.** -/
@[simp] theorem result?_put (rs : CaseResults) (id k : String) (r : CaseResult) :
    (rs.put id r).result? k = if k = id then some r else rs.result? k := by
  unfold result?
  rw [lookup_put]
  split <;> rfl

end CaseResults

/-! ## 2. The steps of a run -/

namespace Run

variable {run : Run} {k : String}

theorem not_hasRepeats_iff_nodup {ids : List String} : hasRepeats ids = false ↔ ids.Nodup := by
  induction ids with
  | nil => exact iff_of_true rfl .nil
  | cons id rest ih =>
      rw [List.nodup_cons, ← ih]
      simp only [hasRepeats, Bool.or_eq_false_iff, List.contains_eq_mem, decide_eq_false_iff_not]

theorem nodup_of_not_hasRepeats {ids : List String} (h : hasRepeats ids = false) : ids.Nodup :=
  not_hasRepeats_iff_nodup.mp h

/-- A run that was just made has no case twice, and no results. -/
theorem make_eq_ok {id project : String} {cases : List TestCase} {config : RunConfig}
    {createdAt : Instant}
    (h : make { id, project, testCases := cases, config, counts := { total := 0 }, caseResults := []
                createdAt } none = .ok run) :
    hasRepeats (cases.map (·.id)) = false ∧
      run = { id, project, testCases := cases, config
              counts := { total := cases.length, pending := cases.length }
              caseResults := noResults cases, createdAt } := by
  unfold make at h
  split at h
  · cases h
  · next hd =>
      cases h
      exact ⟨by simpa using hd, rfl⟩

/-- A run with an id of its own is made the same way. -/
theorem create_eq_ok {project : String} {cases : List TestCase} {config : RunConfig}
    {now : Instant} {number : Nat} (h : create project cases config now number = .ok run) :
    hasRepeats (cases.map (·.id)) = false ∧
      run = { id := newId now number, project, testCases := cases, config
              counts := { total := cases.length, pending := cases.length }
              caseResults := noResults cases, createdAt := now } :=
  make_eq_ok h

theorem isOpen_iff : run.isOpen = true ↔ run.status.isTerminal = false := by
  simp [isOpen]

theorem not_isOpen_iff : run.isOpen = false ↔ run.status.isTerminal = true := by
  simp [isOpen]

theorem not_isTerminal (h : run.isOpen = true) : ¬ run.status.isTerminal = true := by
  rw [isOpen_iff.mp h]
  exact Bool.false_ne_true

theorem isOpen_of_running (h : run.status = .running) : run.isOpen = true :=
  isOpen_iff.mpr (by rw [h]; rfl)

theorem isOpen_of_pending (h : run.status = .pending) : run.isOpen = true :=
  isOpen_iff.mpr (by rw [h]; rfl)

theorem running_of_awaits (h : run.awaits k = true) : run.status = .running := by
  unfold awaits at h
  simp only [Bool.and_eq_true, beq_iff_eq] at h
  exact h.1

theorem isNone_of_awaits (h : run.awaits k = true) : run.caseResults.result? k = none := by
  unfold awaits at h
  simp only [Bool.and_eq_true, Option.isNone_iff_eq_none] at h
  exact h.2

theorem awaits_of (hs : run.status = .running) (hr : run.caseResults.result? k = none) :
    run.awaits k = true := by
  simp [awaits, hs, hr]

/-- A run that has recorded a result awaits that case no more. -/
theorem awaits_recorded {id : String} {r : CaseResult} (h : (run.recorded id r).awaits k = true) :
    run.awaits k = true ∧ k ≠ id := by
  have hs : run.status = .running := @running_of_awaits (run.recorded id r) k h
  have hr := isNone_of_awaits h
  rw [recorded, CaseResults.result?_put] at hr
  split at hr
  · cases hr
  · next hk => exact ⟨awaits_of hs hr, hk⟩

/-- One more result counts as one more case that has one. -/
theorem completed_record (c : RunCounts) (s : CaseStatus) :
    (c.record s).passed + (c.record s).failed = c.passed + c.failed + 1 := by
  cases s with
  | pass =>
      show c.passed + 1 + c.failed = _
      omega
  | fail =>
      show c.passed + (c.failed + 1) = _
      omega

theorem pending_record (c : RunCounts) (s : CaseStatus) :
    (c.record s).pending = c.pending - 1 := by
  cases s <;> rfl

theorem total_record (c : RunCounts) (s : CaseStatus) : (c.record s).total = c.total := by
  cases s <;> rfl

/-- The end of a run changes its counts in the duration alone. -/
theorem counts_ended (run : Run) (status : RunStatus) (now : Instant) :
    (run.ended status now).counts =
      { run.counts with duration := run.origin.millisecondsSince now } := rfl

theorem counts_failed (run : Run) (message : String) (now : Instant) :
    (run.failed message now).counts =
      { run.counts with duration := run.origin.millisecondsSince now } :=
  counts_ended run .failed now

/-! ## 3. What one change makes of a run -/

/-- The news of a run that has ended. -/
def ending (run : Run) : Happening :=
  match run.status with
  | .completed => .completed run.toJson
  | .cancelled => .cancelled run.toJson
  | _ => .error (run.error.getD "")

@[simp] theorem isTerminal_ending (run : Run) : run.ending.isTerminal = true := by
  unfold ending
  split <;> rfl

/-- What a run can become in one change, with the news of it. -/
inductive Turns (run : Run) (now : Instant) : Run → List Happening → Prop where
  | stays : Turns run now run []
  | starts (hs : run.status = .pending) :
      Turns run now (run.started now) [.started (run.started now).toJson]
  | records (c : TestCase) (r : CaseResult) (hc : c ∈ run.testCases)
      (ha : run.awaits c.id = true) :
      Turns run now (run.recorded c.id r)
        [ .progress (.int (run.recorded c.id r).counts.completed)
            (.int (run.recorded c.id r).counts.total),
          .caseCompleted c.id c.title (some r) ]
  | completes (hs : run.status = .running) (ha : ∀ c ∈ run.testCases, run.awaits c.id = false) :
      Turns run now (run.ended .completed now) [(run.ended .completed now).ending]
  | fails (message : String) (hs : run.status = .running) :
      Turns run now (run.failed message now) [(run.failed message now).ending]
  | cancels (ho : run.isOpen = true) :
      Turns run now (run.ended .cancelled now) [(run.ended .cancelled now).ending]

/-- A run can become another in one change. -/
def Becomes (run run' : Run) : Prop := ∃ now news, run.Turns now run' news

namespace Turns

variable {run run' : Run} {now : Instant} {news : List Happening}

theorem testCases_eq (h : run.Turns now run' news) : run'.testCases = run.testCases := by
  cases h <;> rfl

theorem config_eq (h : run.Turns now run' news) : run'.config = run.config := by
  cases h <;> rfl

theorem id_eq (h : run.Turns now run' news) : run'.id = run.id := by
  cases h <;> rfl

/-- A run that has ended stays as it is, and nobody hears of it any more. -/
theorem of_terminal (h : run.Turns now run' news) (ht : run.status.isTerminal = true) :
    run' = run ∧ news = [] := by
  cases h with
  | stays => exact ⟨rfl, rfl⟩
  | starts hs | completes hs _ | fails _ hs =>
      rw [hs] at ht
      cases ht
  | records c r hc ha =>
      rw [running_of_awaits ha] at ht
      cases ht
  | cancels ho => exact absurd ht (not_isTerminal ho)

/-- A result that is there stays there. -/
theorem result (h : run.Turns now run' news) {k : String} {r : CaseResult}
    (hr : run.caseResults.result? k = some r) : run'.caseResults.result? k = some r := by
  cases h with
  | records c x hc ha =>
      have hk : k ≠ c.id := by
        rintro rfl
        rw [isNone_of_awaits ha] at hr
        cases hr
      simp only [recorded, CaseResults.result?_put, if_neg hk]
      exact hr
  | stays | starts | completes | fails | cancels => exact hr

/-- Whatever happens to a run is news, and leaves it pending no longer. -/
theorem news_ne_nil (h : run.Turns now run' news) :
    run' = run ∧ news = [] ∨ run'.status ≠ .pending ∧ news ≠ [] := by
  cases h with
  | stays => exact .inl ⟨rfl, rfl⟩
  | starts hs => exact .inr ⟨nofun, nofun⟩
  | records c r hc ha =>
      refine .inr ⟨fun hs => ?_, nofun⟩
      have hs : run.status = .pending := hs
      rw [running_of_awaits ha] at hs
      cases hs
  | completes | fails | cancels => exact .inr ⟨nofun, nofun⟩

/-- A run that ends is news. -/
theorem of_ends (h : run.Turns now run' news) (ho : run.isOpen = true)
    (ht : run'.status.isTerminal = true) : news = [run'.ending] := by
  rw [isOpen_iff] at ho
  cases h with
  | stays =>
      rw [ho] at ht
      cases ht
  | starts hs => cases ht
  | records c r hc ha => exact absurd ht (by simp [recorded, ho])
  | completes hs _ | fails _ hs | cancels _ => rfl

/-- Nothing but the end of a run is terminal news. -/
theorem isTerminal_news (h : run.Turns now run' news) (ho : run'.isOpen = true) :
    ∀ x ∈ news, x.isTerminal = false := by
  rw [isOpen_iff] at ho
  cases h with
  | stays => exact nofun
  | starts hs => simp [Happening.isTerminal]
  | records c r hc ha => simp [Happening.isTerminal]
  | completes hs _ | fails _ hs | cancels _ => cases ho

end Turns

end Run

end StepRunner
