import StepRunner.Proofs.Supervisor.Lifetime

/-!
# The counts of a run

A run keeps its counts as it goes; this module says that they are the numbers they stand for, in every
state that a supervisor reaches.

* `CaseResults.tally`: how many cases stand a given way in a table of results;
* `Run.Aggregate`: the counts are the tallies of the table, the table has one entry for every case, and
  error text and moments fit the status. A run that was just made has it, and every change keeps it
  (`aggregate_of_make`, `Run.Turns.aggregate`);
* `aggregate_of_held`: every run in memory has it, after every history, and has a start exactly if it
  has been running.
-/

namespace StepRunner

/-! ## 1. Counting in a table -/

namespace CaseResults

/-- How many cases have a result of this verdict, or none. -/
def tally (rs : CaseResults) (verdict : Option CaseStatus) : Nat :=
  rs.countP fun e => e.2.map (·.status) = verdict

variable {rs : CaseResults} {id : String} {r : CaseResult} {verdict : Option CaseStatus}

theorem keys_put (h : id ∈ rs.map (·.1)) : (rs.put id r).map (·.1) = rs.map (·.1) := by
  induction rs with
  | nil => cases h
  | cons e rest ih =>
      obtain ⟨i, v⟩ := e
      unfold put
      split
      · rfl
      · next hi =>
          rw [List.map_cons, List.map_cons, ih]
          exact (List.mem_cons.mp h).resolve_left (Ne.symm hi)

theorem tally_cons (e : String × Option CaseResult) : tally (e :: rs) verdict =
    rs.tally verdict + if e.2.map (·.status) = verdict then 1 else 0 := by
  unfold tally
  rw [List.countP_cons]
  simp

/-- **One more result**: the case leaves the ones without and joins those of its verdict. -/
theorem tally_put (verdict : Option CaseStatus) (h : id ∈ rs.map (·.1)) (hn : rs.result? id = none) :
    (rs.put id r).tally verdict + (if verdict = none then 1 else 0) =
      rs.tally verdict + if verdict = some r.status then 1 else 0 := by
  induction rs with
  | nil => cases h
  | cons e rest ih =>
      obtain ⟨i, v⟩ := e
      unfold result? at hn
      rw [lookup_cons_ite] at hn
      unfold put
      split
      · next hi =>
          rw [if_pos hi.symm] at hn
          obtain rfl : v = none := hn
          rw [tally_cons, tally_cons]
          simp only [Option.map_some, Option.map_none, eq_comm (b := verdict)]
          omega
      · next hi =>
          rw [if_neg (Ne.symm hi)] at hn
          have := ih ((List.mem_cons.mp h).resolve_left (Ne.symm hi)) hn
          rw [tally_cons, tally_cons]
          omega

theorem result?_cons (e : String × Option CaseResult) :
    result? (e :: rs) id = if id = e.1 then e.2 else rs.result? id := by
  unfold result?
  rw [lookup_cons_ite]
  split <;> rfl

/-- **The tally of a table** without repetitions counts its ids by their results. -/
theorem tally_eq_countP (hk : (rs.map (·.1)).Nodup) (verdict : Option CaseStatus) :
    rs.tally verdict = (rs.map (·.1)).countP fun id => (rs.result? id).map (·.status) = verdict := by
  induction rs with
  | nil => rfl
  | cons e rest ih =>
      rw [List.map_cons, List.nodup_cons] at hk
      have hrest : ∀ id ∈ rest.map (·.1), result? (e :: rest) id = result? rest id := by
        intro id hid
        rw [result?_cons, if_neg (by rintro rfl; exact hk.1 hid)]
      have hcount : (rest.map (·.1)).countP (fun id => (result? (e :: rest) id).map (·.status) = verdict) =
          (rest.map (·.1)).countP fun id => (result? rest id).map (·.status) = verdict :=
        List.countP_congr fun id hid => by rw [hrest id hid]
      rw [tally_cons, ih hk.2, List.map_cons, List.countP_cons, hcount, result?_cons, if_pos rfl]
      simp

/-- Where every case has a result there is none without. -/
theorem tally_none (hk : (rs.map (·.1)).Nodup) (h : ∀ k ∈ rs.map (·.1), rs.result? k ≠ none) :
    rs.tally none = 0 := by
  rw [tally_eq_countP hk, List.countP_eq_zero]
  intro k hmem hv
  exact h k hmem (Option.map_eq_none_iff.mp (of_decide_eq_true hv))

end CaseResults

/-! ## 2. The counts of a run -/

/-- The counts of a run are those of its results, of which there is one entry for every case, and its
    error text and its end fit its status. -/
structure Run.Aggregate (run : Run) : Prop where
  distinct : (run.testCases.map (·.id)).Nodup
  keys : run.caseResults.map (·.1) = run.testCases.map (·.id)
  passed : run.counts.passed = run.caseResults.tally (some .pass)
  failed : run.counts.failed = run.caseResults.tally (some .fail)
  pending : run.counts.pending = run.caseResults.tally none
  sum : run.counts.passed + run.counts.failed + run.counts.pending = run.counts.total
  total : run.counts.total = run.testCases.length
  completed : run.status = .completed → run.counts.pending = 0
  error : run.error.isSome = true ↔ run.status = .failed
  completedAt : run.completedAt.isSome = true ↔ run.status.isTerminal = true

namespace Run

variable {run run' : Run} {now : Instant} {news : List Happening}

theorem keys_noResults (cases : List TestCase) : (noResults cases).map (·.1) = cases.map (·.id) := by
  simp [noResults]

theorem tally_noResults (cases : List TestCase) (verdict : Option CaseStatus) :
    (noResults cases).tally verdict = if verdict = none then cases.length else 0 := by
  unfold CaseResults.tally noResults
  rw [List.countP_map]
  cases verdict with
  | none => simp [Function.comp_def]
  | some status => simp [Function.comp_def]

/-- **A run that was just made** counts every case as pending. -/
theorem aggregate_of_make {id project : String} {cases : List TestCase} {config : RunConfig}
    {createdAt : Instant}
    (h : make { id, project, testCases := cases, config, counts := { total := 0 }, caseResults := []
                createdAt } none = .ok run) : run.Aggregate := by
  obtain ⟨hd, rfl⟩ := make_eq_ok h
  have ht := tally_noResults cases
  exact
    { distinct := nodup_of_not_hasRepeats hd
      keys := keys_noResults cases
      passed := by simp [ht]
      failed := by simp [ht]
      pending := by simp [ht]
      sum := by simp
      total := rfl
      completed := nofun
      error := by simp
      completedAt := by simp [RunStatus.isTerminal] }

theorem aggregate_of_create {project : String} {cases : List TestCase} {config : RunConfig}
    {number : Nat} (h : create project cases config now number = .ok run) : run.Aggregate :=
  aggregate_of_make h

/-- Where cases, results and counts stay, up to the duration, there is only the status to see to. -/
theorem Aggregate.frame (h : run.Aggregate) (ht : run'.testCases = run.testCases)
    (hr : run'.caseResults = run.caseResults) {duration : Int}
    (hn : run'.counts = { run.counts with duration })
    (hc : run'.status = .completed → run.counts.pending = 0)
    (he : run'.error.isSome = true ↔ run'.status = .failed)
    (hm : run'.completedAt.isSome = true ↔ run'.status.isTerminal = true) : run'.Aggregate := by
  refine ⟨ht ▸ h.distinct, ?_, ?_, ?_, ?_, ?_, ?_, ?_, he, hm⟩
  · rw [hr, ht]
    exact h.keys
  · rw [hn, hr]
    exact h.passed
  · rw [hn, hr]
    exact h.failed
  · rw [hn, hr]
    exact h.pending
  · rw [hn]
    exact h.sum
  · rw [hn, ht]
    exact h.total
  · rw [hn]
    exact hc

/-- A run that has not ended has no error text. -/
theorem Aggregate.error_of_isOpen (h : run.Aggregate) (ho : run.isOpen = true) :
    run.error.isSome = false := by
  rw [isOpen_iff] at ho
  refine Bool.eq_false_iff.mpr fun he => ?_
  rw [h.error.mp he] at ho
  cases ho

theorem Aggregate.recorded (h : run.Aggregate) {c : TestCase} {r : CaseResult}
    (hc : c ∈ run.testCases) (ha : run.awaits c.id = true) : (run.recorded c.id r).Aggregate := by
  have hk : c.id ∈ run.caseResults.map (·.1) := h.keys ▸ List.mem_map_of_mem hc
  have htally (verdict) := @CaseResults.tally_put run.caseResults c.id r verdict hk (isNone_of_awaits ha)
  have hpass := htally (some .pass)
  have hfail := htally (some .fail)
  have hnone := htally none
  have hp := h.passed
  have hf := h.failed
  have hq := h.pending
  have hsum := h.sum
  have hs : run.status = .running := running_of_awaits ha
  refine ⟨h.distinct, (CaseResults.keys_put hk).trans h.keys, ?_, ?_, ?_, ?_, ?_, ?_, h.error,
    h.completedAt⟩
  · show (run.counts.record r.status).passed = _
    cases hr : r.status <;> simp [RunCounts.record, Run.recorded, hr] at hpass ⊢ <;> omega
  · show (run.counts.record r.status).failed = _
    cases hr : r.status <;> simp [RunCounts.record, Run.recorded, hr] at hfail ⊢ <;> omega
  · show (run.counts.record r.status).pending = _
    cases hr : r.status <;> simp [RunCounts.record, Run.recorded] at hnone ⊢ <;> omega
  · show (run.counts.record r.status).passed + (run.counts.record r.status).failed +
      (run.counts.record r.status).pending = (run.counts.record r.status).total
    cases hr : r.status <;> simp [RunCounts.record] <;> omega
  · show (run.counts.record r.status).total = _
    cases hr : r.status <;> exact h.total
  · intro e
    have e : run.status = .completed := e
    rw [hs] at e
    cases e

/-- Where no case is awaited any more, none is pending. -/
theorem Aggregate.pending_of_awaits (h : run.Aggregate) (hs : run.status = .running)
    (ha : ∀ c ∈ run.testCases, run.awaits c.id = false) : run.counts.pending = 0 := by
  rw [h.pending, CaseResults.tally_none (h.keys ▸ h.distinct)]
  · rfl
  · intro k hk hn
    rw [h.keys] at hk
    obtain ⟨c, hc, rfl⟩ := List.mem_map.mp hk
    have := ha c hc
    rw [awaits_of hs hn] at this
    cases this

/-- **Every change keeps the counts right.** -/
theorem Turns.aggregate (ht : run.Turns now run' news) (h : run.Aggregate) : run'.Aggregate := by
  have none_of {status : RunStatus} (hs : run.status = status) (h' : status.isTerminal = false) :
      run.error.isSome = false := h.error_of_isOpen (by rw [isOpen_iff, hs, h'])
  cases ht with
  | stays => exact h
  | starts hs =>
      have he := none_of hs rfl
      have hm : run.completedAt.isSome ≠ true := fun e => by
        have := h.completedAt.mp e
        rw [hs] at this
        cases this
      have hc : (run.started now).status ≠ .completed := by simp [started]
      exact h.frame rfl rfl rfl (absurd · hc) (by simp [started, he]) (by simp [started, hm, RunStatus.isTerminal])
  | records c r hc ha => exact h.recorded hc ha
  | completes hs ha =>
      have he := none_of hs rfl
      exact h.frame rfl rfl (counts_ended ..) (fun _ => h.pending_of_awaits hs ha)
        (by simp [ended, he]) (by simp [ended, RunStatus.isTerminal])
  | fails message hs =>
      have hc : (run.failed message now).status ≠ .completed := by simp [failed, ended]
      exact h.frame rfl rfl (counts_failed ..) (absurd · hc) (by simp [failed, ended])
        (by simp [failed, ended, RunStatus.isTerminal])
  | cancels ho =>
      have he := h.error_of_isOpen ho
      have hc : (run.ended .cancelled now).status ≠ .completed := by simp [ended]
      exact h.frame rfl rfl (counts_ended ..) (absurd · hc) (by simp [ended, he])
        (by simp [ended, RunStatus.isTerminal])

end Run

namespace Supervisor

variable {id : String} {run : Run} {h : List Move}

/-! ## 3. The start of a run -/

/-- A run has a start after a change if it is running then, or had one before. -/
theorem startedAt_of_turns {run' : Run} {now : Instant} {news : List Happening}
    (ht : run.Turns now run' news) (hrun : run.status = .running → run.startedAt.isSome = true) :
    run'.startedAt.isSome = true ↔ run'.status = .running ∨ run.startedAt.isSome = true := by
  cases ht with
  | stays => exact ⟨.inr, fun h => h.elim hrun id⟩
  | starts hs => exact ⟨fun _ => .inl rfl, fun _ => rfl⟩
  | records c r hc ha => exact ⟨.inr, fun h => h.elim hrun id⟩
  | completes hs ha => exact ⟨.inr, fun h => h.elim nofun id⟩
  | fails message hs => exact ⟨.inr, fun h => h.elim nofun id⟩
  | cancels ho => exact ⟨.inr, fun h => h.elim nofun id⟩

/-- A run in memory has a start exactly if it has been running. -/
theorem startedAt_iff_hasBeen (settings : Settings) (archive : Archive) (now : Instant)
    (hreg : ∀ run ∈ Move.registered h, run.startedAt = none)
    (hr : ((new settings archive now).after h).run? id = some run) :
    run.startedAt.isSome = true ↔ (new settings archive now).HasBeen id h .running := by
  induction h using List.reverseRecOn generalizing run with
  | nil => cases hr
  | append_singleton h m ih =>
      rw [registered_append] at hreg
      have ih {run} (hr : ((new settings archive now).after h).run? id = some run) :
          run.startedAt.isSome = true ↔ (new settings archive now).HasBeen id h .running :=
        ih (fun run' hm => hreg run' (List.mem_append_left _ hm)) hr
      have hnow {status : RunStatus} : (∃ run', ((new settings archive now).after (h ++ [m])).run? id =
          some run' ∧ run'.status = status) ↔ run.status = status := by
        rw [hr]
        exact ⟨fun ⟨_, e, hs⟩ => Option.some.inj e ▸ hs, fun hs => ⟨run, rfl, hs⟩⟩
      rw [hasBeen_concat, hnow, hr]
      rw [after_append] at hr
      have hs := sound_after (sound_new settings archive now) h
      cases hk : ((new settings archive now).after h).run? id with
      | some run₀ =>
          obtain ⟨news, ht⟩ := turns_of_held hs hk hr
          have hrun : run₀.status = .running → run₀.startedAt.isSome = true := fun e =>
            (ih hk).mpr ⟨h, [], (List.append_nil h).symm, ⟨run₀, hk, e⟩, by
              show (((new settings archive now).after h).run? id).isSome = true
              rw [hk]
              rfl⟩
          rw [startedAt_of_turns ht hrun, ih hk]
          simp
      | none =>
          have hnot : ¬ (new settings archive now).HasBeen id h .running := by
            rintro ⟨h₁, h₂, rfl, -, hh⟩
            have := isSome_of_holds hh
            rw [← after_append, hk] at this
            cases this
          obtain ⟨rfl, hp⟩ := registered_of_none hk hr
          have hst := hreg run (List.mem_append_right _ (List.mem_singleton_self run))
          simp [hst, hp, hnot]

/-- **The counts of a run in memory are right after every history**, whichever saves fail, and it has a
    start exactly if it has been running since it was registered. -/
theorem aggregate_of_held (settings : Settings) (archive : Archive) (now : Instant) (h : List Move)
    (id : String) (run : Run)
    (hreg : ∀ run ∈ Move.registered h, ∃ project cases config now number,
      Run.create project cases config now number = .ok run)
    (hr : ((new settings archive now).after h).run? id = some run) :
    run.Aggregate ∧
      (run.startedAt.isSome = true ↔ (new settings archive now).HasBeen id h .running) := by
  refine ⟨?_, startedAt_iff_hasBeen settings archive now (fun run hm => ?_) hr⟩
  · refine held_induction settings archive now (fun _ _ _ _ ht => ht.aggregate) (fun run hm _ => ?_) hr
    obtain ⟨project, cases, config, moment, number, hc⟩ := hreg run hm
    exact Run.aggregate_of_create hc
  · obtain ⟨project, cases, config, moment, number, hc⟩ := hreg run hm
    obtain ⟨-, rfl⟩ := Run.create_eq_ok hc
    rfl

/-- The counts of a run whose case passed. -/
theorem aggregate_of_held_passing : ∃ run,
    ((Sample.supervisor 1 fun _ => none).after (Sample.passing 1000)).run? Sample.runId = some run ∧
      run.status = .completed ∧ run.Aggregate := by
  have hend : (((Sample.supervisor 1 fun _ => none).after (Sample.passing 1000)).run?
      Sample.runId).map (·.status) = some .completed := by decide +kernel
  obtain ⟨run, hr, hs⟩ := Option.map_eq_some_iff.mp hend
  refine ⟨run, hr, hs, (aggregate_of_held _ _ _ (Sample.passing 1000) Sample.runId run ?_ hr).1⟩
  intro run' hm
  obtain rfl : run' = Sample.run 1000 := by simpa [Move.registered, Sample.passing] using hm
  exact ⟨_, _, _, _, _, Sample.create_run 1000⟩

end Supervisor

end StepRunner
