import Mathlib.Data.List.Perm.Subperm
import StepRunner.Proofs.CommandLine.Loading
import StepRunner.Proofs.Http.Endpoints
import StepRunner.Proofs.Supervisor.Requests

/-!
# Requests that start a run

A request starts a run from the suite that it brings, with the cases that it lists.

* `length_chosenCases_iff`: there are as many chosen cases as listed ids, each counted once, exactly if each listed id
  is that of a case;
* `Suite.ofJson_beside`: what else a value holds has no part in the suite that it is;
* `Service.chosen_strings`, `Service.suiteOf_eq`: the cases that a request chooses, and the suite that it brings;
* `Service.startRun_of_error`, `Service.startRun_of_ok`: a request brings no run and is refused, or brings one that is
  started; `Service.startRun_of_suite`: the run of a suite.
-/

namespace StepRunner

/-! ## 1. Listed ids -/

variable {s t : String} {texts wanted : List String} {cases : List TestCase}

theorem mem_insertSorted : t ∈ insertSorted s texts ↔ t = s ∨ t ∈ texts := by
  induction texts with
  | nil => simp [insertSorted]
  | cons u rest ih =>
      unfold insertSorted
      split
      · next h => simp [h]
      · split
        · exact List.mem_cons
        · rw [List.mem_cons, ih, List.mem_cons]
          tauto

theorem pairwise_insertSorted (h : texts.Pairwise (· < ·)) : (insertSorted s texts).Pairwise (· < ·) := by
  induction texts with
  | nil => exact List.pairwise_singleton _ _
  | cons u rest ih =>
      obtain ⟨hu, hrest⟩ := List.pairwise_cons.mp h
      unfold insertSorted
      split
      · exact h
      · next hne =>
          split
          · next hlt =>
              refine List.pairwise_cons.mpr ⟨fun v hv => ?_, h⟩
              obtain rfl | hv := List.mem_cons.mp hv
              · exact hlt
              · exact String.lt_trans hlt (hu v hv)
          · next hnot =>
              refine List.pairwise_cons.mpr ⟨fun v hv => ?_, ih hrest⟩
              obtain rfl | hv := mem_insertSorted.mp hv
              · by_contra hnot'
                exact hne (String.le_antisymm hnot' hnot)
              · exact hu v hv

theorem mem_sortedOnce : t ∈ sortedOnce texts ↔ t ∈ texts := by
  induction texts with
  | nil => exact Iff.rfl
  | cons u rest ih =>
      show t ∈ insertSorted u (sortedOnce rest) ↔ t ∈ u :: rest
      rw [mem_insertSorted, ih, List.mem_cons]

theorem nodup_sortedOnce (texts : List String) : (sortedOnce texts).Nodup := by
  have hsorted : (sortedOnce texts).Pairwise (· < ·) := by
    induction texts with
    | nil => exact List.Pairwise.nil
    | cons u rest ih => exact pairwise_insertSorted ih
  refine hsorted.imp fun h => ?_
  rintro rfl
  exact String.lt_irrefl _ h

/-- **The number of chosen cases** is that of the listed ids exactly if each of these is the id of a case. -/
theorem length_chosenCases_iff (hcases : (cases.map (·.id)).Nodup) :
    (chosenCases cases wanted).length = (sortedOnce wanted).length ↔ ∀ id ∈ wanted, id ∈ cases.map (·.id) := by
  have hmem (id : String) : id ∈ (chosenCases cases wanted).map (·.id) ↔ id ∈ cases.map (·.id) ∧ id ∈ wanted := by
    simp only [chosenCases, List.mem_map, List.mem_filter, List.contains_iff_mem]
    constructor
    · rintro ⟨c, ⟨hc, hid⟩, rfl⟩
      exact ⟨⟨c, hc, rfl⟩, hid⟩
    · rintro ⟨⟨c, hc, rfl⟩, hid⟩
      exact ⟨c, ⟨hc, hid⟩, rfl⟩
  have hnodup : ((chosenCases cases wanted).map (·.id)).Nodup :=
    hcases.sublist (List.filter_sublist.map _)
  rw [← List.length_map (f := (·.id))]
  constructor
  · intro hlength id hid
    have hsub : (chosenCases cases wanted).map (·.id) ⊆ sortedOnce wanted := fun id hid =>
      mem_sortedOnce.mpr ((hmem id).mp hid).2
    have hperm := (List.subperm_of_subset hnodup hsub).perm_of_length_le hlength.ge
    exact ((hmem id).mp (hperm.mem_iff.mpr (mem_sortedOnce.mpr hid))).1
  · intro hknown
    refine ((List.perm_ext_iff_of_nodup hnodup (nodup_sortedOnce _)).mpr fun id => ?_).length_eq
    rw [hmem, mem_sortedOnce]
    exact and_iff_right_of_imp (hknown id)

/-- A list of texts selects these. -/
theorem selection_strings (ids : List String) : selection (.arr (ids.map .str)) = .ok ids := by
  cases ids with
  | nil => rfl
  | cons id rest =>
      show Except.ok ((((id :: rest).map Json.str)).map Json.plain) = _
      rw [List.map_map]
      exact congrArg Except.ok (List.map_id _)

/-! ## 2. Suites -/

theorem Suite.testCases_congr {raw overrides overrides' : Json} {whole whole' : Suite} (ho : overrides.IsRecord)
    (ho' : overrides'.IsRecord) (h : ofJson raw overrides = .ok whole) (h' : ofJson raw overrides' = .ok whole') :
    whole.testCases = whole'.testCases := by
  obtain ⟨-, -, _, -, rfl⟩ := (ofJson_eq_ok_iff ho).mp h
  obtain ⟨-, -, _, -, rfl⟩ := (ofJson_eq_ok_iff ho').mp h'
  rfl

theorem Suite.nodup_testCases {raw overrides : Json} {whole : Suite} (ho : overrides.IsRecord)
    (h : ofJson raw overrides = .ok whole) : (whole.testCases.map (·.id)).Nodup := by
  obtain ⟨-, hdistinct, config, -, rfl⟩ := (ofJson_eq_ok_iff ho).mp h
  rw [CommandLine.ids_ofShape]
  exact hdistinct

/-- What else a value holds has no part in the suite that it is. -/
theorem Suite.ofJson_beside {raw data overrides : Json} {suite : Suite} (hover : overrides.IsRecord)
    (h : ofJson raw overrides = .ok suite)
    (hsame : ∀ key ∈ ["project", "config", "testCases"], data.get? key = raw.get? key) :
    ofJson data overrides = .ok suite := by
  have hproject := hsame "project" (by decide)
  have hconfig := hsame "config" (by decide)
  have hcases := hsame "testCases" (by decide)
  obtain ⟨hshape, hdistinct, config, haccepted, rfl⟩ := (ofJson_eq_ok_iff hover).mp h
  have hitems : caseItems data = caseItems raw := by
    unfold caseItems Json.getD
    rw [hcases]
  have hfields : configFields data = configFields raw := by
    unfold configFields Json.getD
    rw [hconfig]
  refine (ofJson_eq_ok_iff hover).mpr ⟨?_, ?_, config, hfields ▸ haccepted, ?_⟩
  · exact
      { project := hproject ▸ hshape.project
        config := hconfig ▸ hshape.config
        testCases := hcases ▸ hshape.testCases }
  · rw [caseIds, hitems]
    exact hdistinct
  · rw [ofShape, ofShape, hitems, projectOf, projectOf, hproject]

namespace Http

namespace Service

variable {s : Service} {r : Request} {data : Json} {suite : Suite} {run : Run}

/-! ## 3. Bodies -/

/-- An object that is written on one line is the value of a body. -/
theorem bodyJson?_compact {fields : List (String × Json)} (hjson : r.isJson = true)
    (hbody : r.body = (Json.obj fields).compact) (hproper : (Json.obj fields).Proper)
    (hwritable : (Json.obj fields).isWritable = true) : bodyJson? r = some (.obj fields) := by
  have htext : bodyText r = r.body := by
    have hchars : r.body.toList = '\x7b' :: (Json.lineFields Json.stringChar fields ++ ['\x7d']) := by
      rw [hbody, Json.compact, String.toList_ofList]
      rfl
    unfold bodyText
    rw [hchars]
    rfl
  rw [bodyJson?, if_pos hjson, htext, hbody, Json.parse_compact hproper hwritable]
  rfl

/-! ## 4. Starting a run -/

/-- **The cases that a request chooses** by texts: those with a listed id, if each listed id is that of a case. -/
theorem chosen_strings (hcases : (cases.map (·.id)).Nodup) (hsome : wanted ≠ []) :
    chosen cases (.arr (wanted.map .str)) =
      if ∀ id ∈ wanted, id ∈ cases.map (·.id) then .ok (cases.filter fun c => c.id ∈ wanted)
      else .error .unknownCase := by
  unfold chosen
  rw [selection_strings]
  cases wanted with
  | nil => exact absurd rfl hsome
  | cons id rest =>
      dsimp only
      simp only [length_chosenCases_iff hcases]
      rw [chosenCases]
      simp only [List.contains_eq_mem]

/-- The suite that a request brings, with the cases that it chooses. -/
theorem suiteOf_eq (hbody : bodyJson? r = some data) (h : Suite.ofJson data .null = .ok suite) :
    suiteOf r = (chosen suite.testCases (data.getD "caseIds")).map fun testCases => { suite with testCases } := by
  have htruthy : data.isTruthy = true := by
    obtain ⟨hshape, -⟩ := (Suite.ofJson_eq_ok_iff Json.isRecord_null).mp h
    obtain ⟨items, hitems, -⟩ := hshape.testCases
    obtain ⟨fields, rfl⟩ := Json.eq_obj_of_get? hitems
    cases fields with
    | nil => cases hitems
    | cons => rfl
  unfold suiteOf
  rw [hbody, Option.filter_some, if_pos htruthy]
  dsimp only
  rw [h]
  show (chosen suite.testCases (data.getD "caseIds") >>= fun testCases => pure { suite with testCases }) = _
  cases chosen suite.testCases (data.getD "caseIds") <;> rfl

/-- A request without a suite is refused for it. -/
theorem suiteOf_eq_error {fault : SuiteFault} (hbody : (bodyJson? r).filter Json.isTruthy = some data)
    (h : Suite.ofJson data .null = .error fault) : suiteOf r = .error (.ofSuite fault) := by
  unfold suiteOf
  rw [hbody]
  dsimp only
  rw [h]
  rfl

/-- The run that a request asks for. -/
def runOf (s : Service) (r : Request) : Except StartFault Run :=
  (suiteOf r).bind fun suite =>
    (Run.create suite.project suite.testCases suite.config s.supervisor.now (s.made + 1)).mapError fun fault =>
      .config fault.message

theorem runOf_eq_ok (h : s.runOf r = .ok run) : ∃ suite, suiteOf r = .ok suite ∧
    Run.create suite.project suite.testCases suite.config s.supervisor.now (s.made + 1) = .ok run := by
  unfold runOf at h
  cases hsuite : suiteOf r with
  | error fault =>
      rw [hsuite] at h
      cases h
  | ok suite =>
      rw [hsuite, Except.bind] at h
      refine ⟨suite, rfl, ?_⟩
      cases hrun : Run.create suite.project suite.testCases suite.config s.supervisor.now (s.made + 1) with
      | error fault =>
          rw [hrun] at h
          cases h
      | ok run' =>
          rw [hrun] at h
          cases h
          rfl

/-- It is pending. -/
theorem pending_of_runOf (h : s.runOf r = .ok run) : run.status = .pending := by
  obtain ⟨suite, -, hrun⟩ := runOf_eq_ok h
  rw [(Run.create_eq_ok hrun).2]

/-- The answer to a request to start a run, if a history happens between the start and the answer: the run
    is shown as it is in memory then, or else as it was made. -/
def started (s : Service) (run : Run) (h : List Move) : Answer × Service :=
  let s' := { s with made := s.made + 1, supervisor := (s.supervisor.launch run).2.after h }
  match (s.supervisor.launch run).1 with
  | .error refusal => ((StartFault.ofRefusal refusal).answer, s')
  | .ok _ => (.json 202 (success ((s'.supervisor.run? run.id).getD run).toJson
      (.obj [("terminal", .bool ((s'.supervisor.run? run.id).getD run).status.isTerminal)])), s')

/-- The answer to a request to start a run. -/
theorem answer_eq_startRun (hpost : r.destination = .found .runs ∧ r.method = "POST") : s.answer r = s.startRun r :=
  @answer_of_found s r .runs hpost.1 hpost.2

/-- **A request that brings no run** is answered by what is wrong with it, and nothing changes. -/
theorem startRun_of_error {fault : StartFault} (h : s.runOf r = .error fault) :
    (s.startRun r).1 = fault.answer ∧ (s.startRun r).2.supervisor = s.supervisor := by
  unfold runOf at h
  unfold startRun
  cases hsuite : suiteOf r with
  | error f =>
      rw [hsuite] at h
      cases h
      exact ⟨rfl, rfl⟩
  | ok suite =>
      rw [hsuite, Except.bind] at h
      dsimp only
      cases hrun : Run.create suite.project suite.testCases suite.config s.supervisor.now (s.made + 1) with
      | error f =>
          rw [hrun] at h
          cases h
          exact ⟨rfl, rfl⟩
      | ok run =>
          rw [hrun] at h
          cases h

/-- **A request that brings a run** has it started, which then goes on by itself before the answer. -/
theorem startRun_of_ok (h : s.runOf r = .ok run) :
    s.startRun r = s.started run (Supervisor.course.map (.occur run.id)) := by
  obtain ⟨suite, hsuite, hrun⟩ := runOf_eq_ok h
  have hstart : s.supervisor.start run =
      ((s.supervisor.launch run).1, (s.supervisor.launch run).2.settle run.id) := rfl
  unfold startRun started
  rw [hsuite]
  dsimp only
  rw [hrun]
  dsimp only
  rw [hstart, Supervisor.settle_eq_after]
  cases (s.supervisor.launch run).1 with
  | error refusal => rfl
  | ok u =>
      dsimp only
      rw [ofRun, ofSnapshot_toJson]
      rfl

/-- **A request with a suite** has a run of it made, and started by the supervisor; the answer tells if it was. -/
theorem startRun_of_suite (h : suiteOf r = .ok suite) (hdistinct : (suite.testCases.map (·.id)).Nodup) :
    ∃ run, Run.create suite.project suite.testCases suite.config s.supervisor.now (s.made + 1) = .ok run ∧
      (s.startRun r).2 = { s with made := s.made + 1, supervisor := (s.supervisor.start run).2 } ∧
      ((s.supervisor.start run).1 = .ok () → (s.startRun r).1.status = 202) := by
  obtain ⟨run, hrun⟩ : ∃ run,
      Run.create suite.project suite.testCases suite.config s.supervisor.now (s.made + 1) = .ok run := by
    unfold Run.create Run.make
    rw [if_neg (by simpa using Run.not_hasRepeats_iff_nodup.mpr hdistinct)]
    exact ⟨_, rfl⟩
  have hrunOf : s.runOf r = .ok run := by
    rw [runOf, h, Except.bind, hrun]
    rfl
  rw [startRun_of_ok hrunOf, started]
  refine ⟨run, hrun, ?_, fun hok => ?_⟩
  · cases (s.supervisor.launch run).1 <;> rfl
  · have hok : (s.supervisor.launch run).1 = .ok () := hok
    rw [hok]
    rfl

end Service

end Http

/-! ## 5. A request -/

open Http

/-- A request to start a run, without its body. -/
def startRequest : Request where
  method := "POST"
  target := "/api/runs"
  headers := [("Content-Type", "application/json")]

theorem startRequest_posts : startRequest.destination = .found .runs ∧ startRequest.isJson = true := by
  decide +kernel

end StepRunner
