import StepRunner.Proofs.Case.Screenshot
import StepRunner.Proofs.Text.Base64
import StepRunner.Report

/-!
# The rows of a report

There is a report where all its quotients are within the format (`exists_ofRun_iff`). It has a row for every
case (`hasLine_of_mem`), in the order of the run (`rows_eq_map`), with the cells that its result asks for
(`text_of_rowFor`), and the screenshots of the failed ones with them (`screenshots_of_ofRun`); the row of a
failed case links to the file of its screenshot (`hasLine_of_failed`).

What was `Captured` for a case is what the report makes of its result (`imageBytes?_of_captured`).
-/

namespace StepRunner

open Number Text

theorem Text.after?_append (pre cs : List Char) : after? pre (pre ++ cs) = some cs := by
  induction pre with
  | nil => rfl
  | cons c pre ih => rw [List.cons_append, after?, if_pos rfl, ih]

namespace Report

variable {run : Run} {now : Instant} {c : TestCase} {r : CaseResult} {bytes : List UInt8}
  {cases : List TestCase} {row : Row} {rs : List Row} {report : Report}

/-! ## 1. Screenshots -/

/-- The result is that of the case in a browser, whose page gave the bytes as a screenshot. -/
def Captured (c : TestCase) (r : CaseResult) (bytes : List UInt8) : Prop :=
  ∃ (σ : Type) (e : Executor) (b : Browser σ) (d d' : Drive σ) (xs : List Exchange),
    (runCaseBy e b .browser c).run d = (.ok r, d') ∧ Talk b d xs d' ∧
      ⟨.screenshot, .ok (.image bytes)⟩ ∈ xs

theorem screenshot_of_captured (h : Captured c r bytes) : r.screenshot = some (Case.dataUrl bytes) := by
  obtain ⟨σ, e, b, d, d', xs, hrun, htalk, hmem⟩ := h
  obtain ⟨ys, htalk', hshow⟩ := Case.doesShow_runCaseBy e b c d
  rw [hrun] at htalk' hshow
  cases htalk.unique htalk'
  obtain ⟨honce, hshown⟩ := hshow r rfl
  have hshot : .ok (.image bytes) ∈ Case.shots xs :=
    List.mem_map.mpr ⟨_, List.mem_filter.mpr ⟨hmem, rfl⟩, rfl⟩
  have hshots : Case.shots xs = [.ok (.image bytes)] := by
    match hs : Case.shots xs with
    | [] => simp [hs] at hshot
    | [x] => simpa [hs, eq_comm] using hshot
    | x :: y :: rest => simp [hs] at honce
  rw [hshown, hshots]
  rfl

/-- **What was captured** is what a report makes of it. -/
theorem imageBytes?_of_captured (h : Captured c r bytes) : imageBytes? r.screenshot = some bytes := by
  rw [screenshot_of_captured h, imageBytes?, Option.bind_some, Case.dataUrl, String.toList_append,
    after?_append, Option.bind_some, String.toList_ofList, Base64.decode?_encode]

/-! ## 2. Names -/

theorem isNameChar_nameFrom (cs : List Char) (inRun : Bool) :
    ∀ ch ∈ nameFrom inRun cs, isNameChar ch = true := by
  induction cs generalizing inRun with
  | nil => exact nofun
  | cons ch cs ih =>
      unfold nameFrom
      split
      · rename_i hch
        exact List.forall_mem_cons.mpr ⟨hch, ih _⟩
      · split
        · exact ih _
        · exact List.forall_mem_cons.mpr ⟨by decide, ih _⟩

/-- The name of a screenshot file has no other characters than file names keep. -/
theorem isNameChar_fileName (id : String) : ∀ ch ∈ (fileName id).toList, isNameChar ch = true := by
  have hsafe : ∀ ch ∈ (safeName id).toList, isNameChar ch = true := by
    unfold safeName
    split
    · exact List.all_eq_true.mp (by decide)
    · rw [String.toList_ofList]
      exact isNameChar_nameFrom _ _
  have hending : ∀ ch ∈ ".png".toList, isNameChar ch = true := List.all_eq_true.mp (by decide)
  unfold fileName
  rw [String.toList_append]
  exact fun ch hch => (List.mem_append.mp hch).elim (hsafe ch) (hending ch)

/-! ## 3. One row -/

/-- The screenshot file that goes with the row of a case. -/
def imageOf? (run : Run) (c : TestCase) : Option (String × List UInt8) :=
  (run.caseResults.result? c.id).bind fun r => if r.passed then none else imageFile? c r

/-- The row of a failed case. -/
def failedRow (c : TestCase) (r : CaseResult) (time : String) : String :=
  rowOf [idCell c.id, cell (some c.title), time, cell r.error, cell r.message, link (imageFile? c r)]

/-- The function is opened as a whole: on numbers that are not known the rounding would be carried out. -/
theorem quotient_def : quotient = fun n d =>
    match Binary64.quotient? n d with
    | some x => .ok x
    | none => .error .quotientTooLarge := rfl

theorem quotient_eq (n d : Int) : quotient n d =
    (Binary64.quotient? n d).elim (.error .quotientTooLarge) .ok := by
  have h : quotient n d = match Binary64.quotient? n d with
      | some x => .ok x
      | none => .error .quotientTooLarge := congrFun (congrFun quotient_def n) d
  rw [h]
  cases Binary64.quotient? n d <;> rfl

theorem exists_quotient_map_iff {α : Type} {f : Binary64 → α} {n d : Int} :
    (∃ a, (quotient n d).map f = .ok a) ↔ (Binary64.quotient? n d).isSome = true := by
  rw [quotient_eq]
  cases Binary64.quotient? n d with
  | none => exact iff_of_false (by rintro ⟨a, ⟨⟩⟩) nofun
  | some x => exact iff_of_true ⟨_, rfl⟩ rfl

theorem exists_secondsText_iff {n : Int} :
    (∃ time, secondsText n = .ok time) ↔ (Binary64.quotient? n 1000).isSome = true :=
  exists_quotient_map_iff

/-- A row is that of a case that has no result, that passed, or that failed. -/
theorem rowFor_eq_ok (h : rowFor run c = .ok row) :
    row.image = imageOf? run c ∧
      ∀ r, run.caseResults.result? c.id = some r → (Binary64.quotient? r.duration 1000).isSome = true ∧
        (r.passed = false → row.group = .failed ∧ ∃ time, row.text = failedRow c r time) := by
  unfold rowFor at h
  unfold imageOf?
  cases hr : run.caseResults.result? c.id with
  | none =>
      rw [hr] at h
      cases h
      exact ⟨rfl, nofun⟩
  | some r =>
      rw [hr] at h
      dsimp only at h
      cases ht : secondsText r.duration with
      | error f =>
          rw [ht] at h
          cases h
      | ok time =>
          rw [ht] at h
          change (if r.passed = true then _ else _) = _ at h
          rw [Option.bind_some]
          split at h
          · rename_i hpassed
            cases h
            refine ⟨by rw [if_pos hpassed], ?_⟩
            rintro _ ⟨⟩
            exact ⟨exists_secondsText_iff.mp ⟨time, ht⟩, fun hfailed => by rw [hpassed] at hfailed; cases hfailed⟩
          · rename_i hfailed
            cases h
            refine ⟨by rw [if_neg hfailed], ?_⟩
            rintro _ ⟨⟩
            exact ⟨exists_secondsText_iff.mp ⟨time, ht⟩, fun _ => ⟨rfl, time, rfl⟩⟩

/-- The verdict of the cases in a group; none where they have no result. -/
def Group.verdict? : Group → Option CaseStatus
  | .failed => some .fail
  | .passed => some .pass
  | .notRun => none

/-- The cells of a case's row, with the time of its result. -/
def cellsOf (run : Run) (c : TestCase) (time : String) : List String :=
  [idCell c.id, cell (some c.title)] ++
    match run.caseResults.result? c.id with
    | none => []
    | some r =>
      if r.passed then [time, cell r.message]
      else [time, cell r.error, cell r.message, link (imageFile? c r)]

/-- **A row** stands in the group of the case's verdict, and has the cells that its result asks for. -/
theorem text_of_rowFor (h : rowFor run c = .ok row) :
    (run.caseResults.result? c.id).map (·.status) = row.group.verdict? ∧
      ∃ time, row.text = rowOf (cellsOf run c time) ∧
        ∀ r, run.caseResults.result? c.id = some r → secondsText r.duration = .ok time := by
  unfold rowFor at h
  unfold cellsOf
  cases hr : run.caseResults.result? c.id with
  | none =>
      rw [hr] at h
      cases h
      exact ⟨rfl, "", rfl, nofun⟩
  | some r =>
      rw [hr] at h
      dsimp only at h
      cases ht : secondsText r.duration with
      | error f =>
          rw [ht] at h
          cases h
      | ok time =>
          rw [ht] at h
          change (if r.passed = true then _ else _) = _ at h
          have htime : ∀ r', some r = some r' → secondsText r'.duration = .ok time := by
            rintro _ ⟨⟩
            exact ht
          split at h
          · rename_i hpassed
            cases h
            refine ⟨congrArg some (beq_iff_eq.mp hpassed), time, ?_, htime⟩
            dsimp only
            rw [if_pos hpassed]
            rfl
          · rename_i hfailed
            cases h
            have hstatus : r.status = .fail := by
              cases hs : r.status with
              | pass => exact absurd (beq_iff_eq.mpr hs) hfailed
              | fail => rfl
            refine ⟨congrArg some hstatus, time, ?_, htime⟩
            dsimp only
            rw [if_neg hfailed]
            rfl

theorem exists_rowFor (h : ∀ r, run.caseResults.result? c.id = some r →
    (Binary64.quotient? r.duration 1000).isSome = true) : ∃ row, rowFor run c = .ok row := by
  unfold rowFor
  cases hr : run.caseResults.result? c.id with
  | none => exact ⟨_, rfl⟩
  | some r =>
      obtain ⟨time, ht⟩ := exists_secondsText_iff.mpr (h r hr)
      dsimp only
      rw [ht]
      by_cases hpassed : r.passed
      · exact ⟨_, if_pos hpassed⟩
      · exact ⟨_, if_neg hpassed⟩

/-! ## 4. All rows -/

theorem rows_cons_eq_ok : rows run (c :: cases) = .ok rs ↔
    ∃ row rest, rowFor run c = .ok row ∧ rows run cases = .ok rest ∧ rs = row :: rest := by
  rw [rows]
  cases hrow : rowFor run c with
  | error f => exact ⟨nofun, by rintro ⟨row, rest, ⟨⟩, -⟩⟩
  | ok row =>
      cases hrest : rows run cases with
      | error f => exact ⟨nofun, by rintro ⟨row, rest, -, ⟨⟩, -⟩⟩
      | ok rest =>
          constructor
          · rintro ⟨⟩
            exact ⟨row, rest, rfl, rfl, rfl⟩
          · rintro ⟨_, _, ⟨⟩, ⟨⟩, rfl⟩
            rfl

/-- There is a row for every case, and the screenshots go with the rows. -/
theorem rows_eq_ok (h : rows run cases = .ok rs) :
    (∀ c ∈ cases, ∃ row ∈ rs, rowFor run c = .ok row) ∧
      rs.filterMap (·.image) = cases.filterMap (imageOf? run) := by
  induction cases generalizing rs with
  | nil =>
      cases h
      exact ⟨nofun, rfl⟩
  | cons c cases ih =>
      obtain ⟨row, rest, hrow, hrest, rfl⟩ := rows_cons_eq_ok.mp h
      obtain ⟨hrows, himages⟩ := ih hrest
      refine ⟨List.forall_mem_cons.mpr ⟨⟨row, List.mem_cons_self, hrow⟩, fun c' hc' => ?_⟩, ?_⟩
      · obtain ⟨row', hmem, hrow'⟩ := hrows c' hc'
        exact ⟨row', List.mem_cons_of_mem _ hmem, hrow'⟩
      · rw [List.filterMap_cons, List.filterMap_cons, (rowFor_eq_ok hrow).1, himages]

/-- The rows are those of the cases, one for each, in order. -/
theorem rows_eq_map (h : rows run cases = .ok rs) :
    ∃ row : TestCase → Row, (∀ c ∈ cases, rowFor run c = .ok (row c)) ∧ rs = cases.map row := by
  refine ⟨fun c => (rowFor run c).toOption.getD { group := .notRun, text := "" }, ?_, ?_⟩
  · intro c hc
    obtain ⟨row, -, hrow⟩ := (rows_eq_ok h).1 c hc
    dsimp only
    rw [hrow]
    rfl
  · induction cases generalizing rs with
    | nil =>
        cases h
        rfl
    | cons c cases ih =>
        obtain ⟨row, rest, hrow, hrest, rfl⟩ := rows_cons_eq_ok.mp h
        rw [List.map_cons, ← ih hrest, hrow]
        rfl

theorem exists_rows (h : ∀ c ∈ cases, ∃ row, rowFor run c = .ok row) : ∃ rs, rows run cases = .ok rs := by
  induction cases with
  | nil => exact ⟨[], rfl⟩
  | cons c cases ih =>
      rw [List.forall_mem_cons] at h
      obtain ⟨row, hrow⟩ := h.1
      obtain ⟨rest, hrest⟩ := ih h.2
      exact ⟨_, rows_cons_eq_ok.mpr ⟨row, rest, hrow, hrest, rfl⟩⟩

/-! ## 5. The report -/

/-- The quotients that a report shows are within the format. -/
structure Shown (run : Run) : Prop where
  durations : ∀ c ∈ run.testCases, ∀ r, run.caseResults.result? c.id = some r →
    (Binary64.quotient? r.duration 1000).isSome = true
  rate : run.counts.total ≠ 0 → (Binary64.quotient? run.counts.passed run.counts.total).isSome = true

theorem ofRun_eq_ok (h : ofRun run now = .ok report) : ∃ rs rate, rows run run.testCases = .ok rs ∧
    successRate run.counts = .ok rate ∧
    report = { text := "\n".intercalate (lines run now rs rate), screenshots := rs.filterMap (·.image) } := by
  unfold ofRun at h
  cases hrows : rows run run.testCases with
  | error f =>
      rw [hrows] at h
      cases h
  | ok rs =>
      rw [hrows] at h
      cases hrate : successRate run.counts with
      | error f =>
          rw [hrate] at h
          cases h
      | ok rate =>
          rw [hrate] at h
          cases h
          exact ⟨rs, rate, rfl, rfl, rfl⟩

theorem exists_successRate_iff {counts : RunCounts} : (∃ rate, successRate counts = .ok rate) ↔
    (counts.total ≠ 0 → (Binary64.quotient? counts.passed counts.total).isSome = true) := by
  unfold successRate
  split
  · rename_i hzero
    exact iff_of_true ⟨_, rfl⟩ fun hne => absurd hzero hne
  · rename_i hne
    rw [exists_quotient_map_iff]
    exact ⟨fun h _ => h, fun h => h hne⟩

/-- **There is a report** where the quotients that it shows are within the format. -/
theorem exists_ofRun_iff : (∃ report, ofRun run now = .ok report) ↔ Shown run := by
  constructor
  · rintro ⟨report, h⟩
    obtain ⟨rs, rate, hrows, hrate, -⟩ := ofRun_eq_ok h
    refine ⟨fun c hc r hr => ?_, exists_successRate_iff.mp ⟨rate, hrate⟩⟩
    obtain ⟨row, -, hrow⟩ := (rows_eq_ok hrows).1 c hc
    exact ((rowFor_eq_ok hrow).2 r hr).1
  · rintro ⟨hdurations, hrate⟩
    obtain ⟨rs, hrows⟩ := exists_rows fun c hc => exists_rowFor (hdurations c hc)
    obtain ⟨rate, hrate⟩ := exists_successRate_iff.mpr hrate
    unfold ofRun
    rw [hrows, hrate]
    exact ⟨_, rfl⟩

/-- **The screenshots of a report** are those of its failed cases, in order. -/
theorem screenshots_of_ofRun (h : ofRun run now = .ok report) :
    report.screenshots = run.testCases.filterMap (imageOf? run) := by
  obtain ⟨rs, rate, hrows, -, rfl⟩ := ofRun_eq_ok h
  exact (rows_eq_ok hrows).2

/-- A line of the report's text, which may have breaks of its own. -/
def HasLine (report : Report) (line : String) : Prop :=
  ∃ lines, report.text = "\n".intercalate lines ∧ line ∈ lines

/-- **The row of every case** is in the text. -/
theorem hasLine_of_mem (h : ofRun run now = .ok report) (hc : c ∈ run.testCases) :
    ∃ row, rowFor run c = .ok row ∧ report.HasLine row.text := by
  obtain ⟨rs, rate, hrows, -, hreport⟩ := ofRun_eq_ok h
  obtain ⟨row, hmem, hrow⟩ := (rows_eq_ok hrows).1 c hc
  have hin : row ∈ rowsOf row.group rs := List.mem_filter.mpr ⟨hmem, beq_self_eq_true _⟩
  have hline : row.text ∈ groupLines rs row.group := by
    unfold groupLines
    rw [if_neg (by rw [List.isEmpty_iff]; exact List.ne_nil_of_mem hin)]
    exact List.mem_append_left _ (List.mem_append_right _ (List.mem_map_of_mem hin))
  have hlines : row.text ∈ lines run now rs rate := by
    unfold lines
    rw [List.mem_append, List.mem_append, List.mem_append, List.mem_append]
    cases hgroup : row.group with
    | failed =>
        rw [hgroup] at hline
        exact .inl (.inl (.inl (.inr hline)))
    | passed =>
        rw [hgroup] at hline
        exact .inl (.inl (.inr hline))
    | notRun =>
        rw [hgroup] at hline
        exact .inl (.inr hline)
  exact ⟨row, hrow, lines run now rs rate, by rw [hreport], hlines⟩

/-- The row of a failed case. -/
theorem hasLine_of_failed (h : ofRun run now = .ok report) (hc : c ∈ run.testCases)
    (hr : run.caseResults.result? c.id = some r) (hfailed : r.passed = false) :
    ∃ time, report.HasLine (failedRow c r time) := by
  obtain ⟨row, hrow, hline⟩ := hasLine_of_mem h hc
  obtain ⟨-, time, htext⟩ := ((rowFor_eq_ok hrow).2 r hr).2 hfailed
  exact ⟨time, htext ▸ hline⟩

end Report

end StepRunner
