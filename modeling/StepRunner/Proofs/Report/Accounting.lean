import StepRunner.Proofs.Number.Binary64
import StepRunner.Proofs.Report.Rows
import StepRunner.Proofs.Supervisor.Aggregate

/-!
# What a report accounts for

The sections of a report come from the results of the cases, its summary from the counts that the run has
kept as it went. The two agree in every state that a supervisor brings a run to.

* `casesOf`: the cases of a group, in the order of the run; together they are the cases of the run
  (`casesOf_perm`);
* `Report.AccountsFor`: each section has one row for every case of its group, and the summary has the
  numbers of the rows;
* `accounts_of_hasHad`: every report of such a run accounts for it, and there is one if the durations
  can be shown.
-/

namespace StepRunner

open Number

namespace Report

variable {run : Run} {now : Instant} {c : TestCase} {rs : List Row} {report : Report} {g : Group}

/-! ## 1. The cases of a group -/

/-- The cases of a group, in the order of the run. -/
def casesOf (run : Run) (g : Group) : List TestCase :=
  run.testCases.filter fun c => (run.caseResults.result? c.id).map (·.status) = g.verdict?

theorem verdict?_inj {g g' : Group} (h : g.verdict? = g'.verdict?) : g = g' := by
  cases g <;> cases g' <;> first | rfl | cases h

/-- Every case stands in one group, once. -/
theorem casesOf_perm (run : Run) :
    (casesOf run .failed ++ casesOf run .passed ++ casesOf run .notRun).Perm run.testCases := by
  rw [List.append_assoc]
  refine List.Perm.trans (List.Perm.append_left _ ?_) (List.filter_append_perm _ run.testCases)
  refine List.Perm.trans ?_ (List.filter_append_perm
    (fun c => (run.caseResults.result? c.id).map (·.status) = some .pass) _)
  rw [List.filter_filter, List.filter_filter]
  refine List.Perm.of_eq (congrArg₂ _ (List.filter_congr fun c _ => ?_) (List.filter_congr fun c _ => ?_))
  all_goals
    cases (run.caseResults.result? c.id).map (·.status) with
    | none => rfl
    | some status => cases status <;> rfl

/-- The rows of a group are those of its cases. -/
theorem rowsOf_eq_map {row : TestCase → Row} (hrow : ∀ c ∈ run.testCases, rowFor run c = .ok (row c)) :
    rowsOf g (run.testCases.map row) = (casesOf run g).map row := by
  unfold rowsOf casesOf
  rw [List.filter_map]
  refine congrArg _ (List.filter_congr fun c hc => ?_)
  obtain ⟨hgroup, -⟩ := text_of_rowFor (hrow c hc)
  rw [hgroup, Function.comp_apply, Bool.eq_iff_iff, beq_iff_eq, decide_eq_true_iff]
  exact ⟨congrArg _, verdict?_inj⟩

/-- A group has as many cases as there are results of its verdict. -/
theorem length_casesOf (ha : run.Aggregate) (g : Group) :
    (casesOf run g).length = run.caseResults.tally g.verdict? := by
  rw [CaseResults.tally_eq_countP (ha.keys ▸ ha.distinct), ha.keys, List.countP_map, casesOf,
    List.countP_eq_length_filter]
  rfl

/-! ## 2. The text -/

/-- The section of a group with these rows; nothing where there is none. -/
def sectionOf (g : Group) : List String → List String
  | [] => []
  | row :: rows => [heading g, ""] ++ tableHead g ++ (row :: rows) ++ [""]

theorem groupLines_eq_sectionOf (rs : List Row) (g : Group) :
    groupLines rs g = sectionOf g ((rowsOf g rs).map (·.text)) := by
  unfold groupLines
  cases rowsOf g rs with
  | nil => rfl
  | cons row rest => rfl

/-- The summary with these numbers. -/
def summaryOf (passed failed notRun : Nat) (rate : Binary64) (workers : Int) : List String :=
  [ "## Summary", "", "| Metric | Value |", "|------|------|",
    rowOf ["Total cases", numeral (passed + failed + notRun : Nat)],
    rowOf ["Passed", numeral passed],
    rowOf ["Failed", numeral failed],
    rowOf ["Not run", numeral notRun],
    rowOf ["Success rate", fixedText 1 rate ++ "%"],
    rowOf ["Parallel workers", numeral workers], "" ]

/-- **The counts of a run** are the numbers of the rows. -/
theorem summary_eq_summaryOf (ha : run.Aggregate) (rate : Binary64) :
    summary run rate = summaryOf (casesOf run .passed).length (casesOf run .failed).length
      (casesOf run .notRun).length rate run.config.concurrency := by
  have hpassed : run.counts.passed = (casesOf run .passed).length := by
    rw [length_casesOf ha, ha.passed]
    rfl
  have hfailed : run.counts.failed = (casesOf run .failed).length := by
    rw [length_casesOf ha, ha.failed]
    rfl
  have hpending : run.counts.pending = (casesOf run .notRun).length := by
    rw [length_casesOf ha, ha.pending]
    rfl
  have htotal : run.counts.total = ((casesOf run .passed).length + (casesOf run .failed).length +
      (casesOf run .notRun).length : Nat) := by
    have hsum := ha.sum
    omega
  unfold summary summaryOf
  rw [htotal, hpassed, hfailed, hpending]

/-- **The report accounts for the cases of the run**: they stand in the sections of their verdicts, each
    once and in the order of the run, in a row that begins with its id and its title; a section is there if
    it has a row; and the summary has the numbers of the rows and their sum. -/
structure AccountsFor (report : Report) (run : Run) (now : Instant) : Prop where
  distinct : (run.testCases.map (·.id)).Nodup
  once : (casesOf run .failed ++ casesOf run .passed ++ casesOf run .notRun).Perm run.testCases
  text : ∃ (rate : Binary64) (time : TestCase → String), successRate run.counts = .ok rate ∧
    (∀ c ∈ run.testCases, ∀ r, run.caseResults.result? c.id = some r →
      secondsText r.duration = .ok (time c)) ∧
    report.text = "\n".intercalate (["# Test Run Report", ""] ++ facts run now ++ [""] ++
      summaryOf (casesOf run .passed).length (casesOf run .failed).length (casesOf run .notRun).length
        rate run.config.concurrency ++
      ([.failed, .passed, .notRun].flatMap fun g =>
        sectionOf g ((casesOf run g).map fun c => rowOf (cellsOf run c (time c)))) ++
      ["---", "", "*Generated at " ++ momentText now ++ " UTC*", ""])

/-- A report of a run whose counts are right accounts for it. -/
theorem accountsFor_of_aggregate (ha : run.Aggregate) (h : ofRun run now = .ok report) :
    report.AccountsFor run now := by
  obtain ⟨rs, rate, hrows, hrate, hreport⟩ := ofRun_eq_ok h
  obtain ⟨row, hrow, rfl⟩ := rows_eq_map hrows
  have htext := fun c hc => (text_of_rowFor (hrow c hc)).2
  choose! time htext htime using htext
  refine ⟨ha.distinct, casesOf_perm run, rate, time, hrate, htime, ?_⟩
  have hsection (g : Group) : groupLines (run.testCases.map row) g =
      sectionOf g ((casesOf run g).map fun c => rowOf (cellsOf run c (time c))) := by
    rw [groupLines_eq_sectionOf, rowsOf_eq_map hrow, List.map_map]
    exact congrArg _ (List.map_congr_left fun c hc => htext c (List.mem_of_mem_filter hc))
  rw [hreport]
  dsimp only
  unfold lines
  rw [hsection, hsection, hsection, summary_eq_summaryOf ha, List.flatMap_cons, List.flatMap_cons,
    List.flatMap_cons, List.flatMap_nil, List.append_nil]
  simp only [List.append_assoc]

/-- There is a report of a run whose counts are right if its durations can be shown. -/
theorem exists_report_iff (ha : run.Aggregate) : (∃ report, ofRun run now = .ok report) ↔
    ∀ c ∈ run.testCases, ∀ r, run.caseResults.result? c.id = some r →
      (Binary64.quotient? r.duration 1000).isSome = true := by
  rw [exists_ofRun_iff]
  refine ⟨Shown.durations, fun h => ⟨h, fun hne => Binary64.isSome_quotient? hne ?_⟩⟩
  have hpassed := ha.passed
  have hfailed := ha.failed
  have hpending := ha.pending
  have hsum := ha.sum
  omega

end Report

namespace Supervisor

/-! ## 3. Every run of a supervisor -/

/-- **A report accounts for every case once**, whatever has happened to the run: a run in memory, or one
    that has left it, has a report if the durations of its results can be shown, and every report of it
    accounts for it. -/
theorem accounts_of_hasHad (settings : Settings) (archive : Archive) (start : Instant) (h : List Move)
    (run : Run) (now : Instant)
    (hreg : ∀ run ∈ Move.registered h, ∃ project cases config now number,
      Run.create project cases config now number = .ok run)
    (hr : ((new settings archive start).after h).HasHad run) :
    ((∃ report, Report.ofRun run now = .ok report) ↔
      ∀ c ∈ run.testCases, ∀ r, run.caseResults.result? c.id = some r →
        (Binary64.quotient? r.duration 1000).isSome = true) ∧
    ∀ report, Report.ofRun run now = .ok report → report.AccountsFor run now := by
  have ha : run.Aggregate := by
    refine hasHad_induction settings archive start (fun _ _ _ _ ht => ht.aggregate) (fun run hm _ => ?_) hr
    obtain ⟨project, cases, config, moment, number, hc⟩ := hreg run hm
    exact Run.aggregate_of_create hc
  exact ⟨Report.exists_report_iff ha, fun report => Report.accountsFor_of_aggregate ha⟩

/-- A run whose case passed, and that has left memory, has a report that accounts for it. -/
theorem accounts_of_hasHad_passing : ∃ run report,
    ((Sample.supervisor 0 fun _ => none).after (Sample.passing 1000)).HasHad run ∧
      run.status = .completed ∧ Report.ofRun run ⟨0⟩ = .ok report ∧ report.AccountsFor run ⟨0⟩ := by
  have hend : ((((Sample.supervisor 0 fun _ => none).after (Sample.passing 1000)).evicted.head?.map
      (·.run)).filter fun run => run.testCases.all fun c => (run.caseResults.result? c.id).all fun r =>
        (Binary64.quotient? r.duration 1000).isSome).map (·.status) = some .completed := by
    decide +kernel
  obtain ⟨run, hrun, hs⟩ := Option.map_eq_some_iff.mp hend
  rw [Option.filter_eq_some_iff, Option.map_eq_some_iff] at hrun
  obtain ⟨⟨st, hst, rfl⟩, hshown⟩ := hrun
  have hhad : ((Sample.supervisor 0 fun _ => none).after (Sample.passing 1000)).HasHad st.run :=
    .inr ⟨st, List.mem_of_head? hst, rfl⟩
  have hreg : ∀ run ∈ Move.registered (Sample.passing 1000), ∃ project cases config now number,
      Run.create project cases config now number = .ok run := by
    intro run' hm
    obtain rfl : run' = Sample.run 1000 := by simpa [Move.registered, Sample.passing] using hm
    exact ⟨_, _, _, _, _, Sample.create_run 1000⟩
  obtain ⟨hex, haccounts⟩ := accounts_of_hasHad _ _ _ (Sample.passing 1000) st.run ⟨0⟩ hreg hhad
  obtain ⟨report, hreport⟩ := hex.mpr fun c hc r hr => by
    have hall := List.all_eq_true.mp hshown c hc
    rwa [hr, Option.all_some] at hall
  exact ⟨st.run, report, hhad, hs, hreport, haccounts report hreport⟩

end Supervisor

end StepRunner
