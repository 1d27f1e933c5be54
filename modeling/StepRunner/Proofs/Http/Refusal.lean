import StepRunner.Proofs.Http.Starting

/-!
# Bad requests

A request to start a run that cannot be followed should be answered as the fault of whoever made it, and leave
everything as it was.

* `Json.IsUnlisted`, `chosen_eq_internal_iff`: what stands where ids are listed, and can neither be passed over nor
  be taken apart;
* `Service.runOf_eq_internal_iff`: a suite beside such a value is the only request whose fault is not its own;
* `Supervisor.tally_launch`: a run is taken over if it is accepted, and in no other case;
* `Service.startRequest_answered`: what a request to start a run is answered, whatever its body, and what becomes of
  the supervisor.

It should be so for every body, and no run should be started that is not taken over. The first fails where a number or
true stands in the place of the ids, which is looked at beside the suite and without its schema; the second where a run
waits in memory that has the id of the new one.
-/

namespace StepRunner

/-! ## 1. Values that list nothing -/

/-- A value that is truthy and has no parts: true, and the numbers other than zero. -/
def Json.IsUnlisted : Json → Prop
  | .bool b => b = true
  | .int n => n ≠ 0
  | .float x => x.isZero = false
  | _ => False

theorem selection_eq_error_iff {j : Json} : (∃ fault, selection j = .error fault) ↔ j.IsUnlisted := by
  unfold selection
  cases j with
  | bool b => cases b <;> simp [Json.isTruthy, Json.parts?, Json.IsUnlisted]
  | int n => by_cases h : n = 0 <;> simp [Json.isTruthy, Json.parts?, Json.IsUnlisted, h]
  | float x => cases h : x.isZero <;> simp [Json.isTruthy, Json.parts?, Json.IsUnlisted, h]
  | null => simp [Json.isTruthy, Json.IsUnlisted]
  | str s => by_cases h : s = "" <;> simp [Json.isTruthy, Json.parts?, Json.IsUnlisted, h]
  | arr items => cases items <;> simp [Json.isTruthy, Json.parts?, Json.IsUnlisted]
  | obj fields => cases fields <;> simp [Json.isTruthy, Json.parts?, Json.IsUnlisted]

namespace Supervisor

variable {s : Supervisor} {run : Run} {id k : String}

/-! ## 2. What starting a run does to the supervisor -/

/-- **Who is taken over** as a run is started, and what goes on with it by itself: the run, if it is accepted. -/
theorem tally_launch (hs : s.Sound) (hp : run.status = .pending) (hb : ¬ s.Breaks (.register run))
    (os : List Occasion) : ((s.launch run).2.after (os.map (.occur run.id))).tally k =
      s.tally k + if run.id = k ∧ s.accepts run = true then 1 else 0 := by
  have hnone (h : List Move) (halong : s.along takesOver h = []) : (s.after h).tally k = s.tally k := by
    rw [tally_after hs, halong, List.count_nil, Nat.add_zero]
  cases ha : s.accepts run with
  | true =>
      have halong : s.along takesOver (launching run ++ os.map (.occur run.id)) = [run.id] := by
        show (s.takesOver (.register run)).toList ++
          along _ takesOver ((.launch :: os).map (.occur run.id)) = _
        rw [along_takesOver_occur, takesOver, if_pos ha]
        rfl
      rw [launch_of_accepts ha hb, ← after_append, tally_after hs, halong]
      simp [List.count_singleton]
  | false =>
      simp only [Bool.false_eq_true, and_false, if_false, Nat.add_zero]
      cases hst : s.state? run.id with
      | none =>
          rw [launch_of_not_accepts hp hst ha]
          exact hnone _ (along_takesOver_occur s run.id os)
      | some st =>
          rw [launch_of_state? hst]
          split
          · exact hnone (.occur run.id .launch :: os.map (.occur run.id))
              (along_takesOver_occur s run.id (.launch :: os))
          · exact hnone _ (along_takesOver_occur s run.id os)

/-- The run is in memory, and nobody has asked for its dispatch. -/
def Waits (s : Supervisor) (id : String) : Prop := ∃ st, s.state? id = some st ∧ st.dispatch = .idle

/-- A pending run is started exactly if it is accepted, or waits in memory. Else nothing changes. -/
theorem launch_ok_iff (hp : run.status = .pending) (hb : ¬ s.Breaks (.register run)) :
    ((s.launch run).1 = .ok () ↔ s.accepts run = true ∨ s.Waits run.id) ∧
      ∀ refusal, (s.launch run).1 = .error refusal →
        (refusal = .alreadyRegistered run.id ∨ refusal = .alreadyStarted run.id) ∧ (s.launch run).2 = s := by
  cases ha : s.accepts run with
  | true =>
      rw [launch_of_accepts ha hb]
      exact ⟨iff_of_true rfl (.inl rfl), nofun⟩
  | false =>
      simp only [Bool.false_eq_true, false_or]
      cases hst : s.state? run.id with
      | none =>
          rw [launch_of_not_accepts hp hst ha]
          refine ⟨iff_of_false nofun ?_, fun refusal h => ?_⟩
          · rintro ⟨st, hst', -⟩
            rw [hst] at hst'
            cases hst'
          · cases h
            exact ⟨.inl rfl, rfl⟩
      | some st =>
          have hwaits : s.Waits run.id ↔ st.dispatch = .idle := by
            unfold Waits
            rw [hst]
            simp
          rw [launch_of_state? hst, hwaits]
          by_cases hd : st.dispatch = .idle
          · rw [if_pos hd]
            exact ⟨iff_of_true rfl hd, nofun⟩
          · rw [if_neg hd]
            refine ⟨iff_of_false nofun hd, fun refusal h => ?_⟩
            cases h
            exact ⟨.inr rfl, rfl⟩

end Supervisor

namespace Http

namespace Service

variable {s : Service} {r : Request} {run : Run} {cases : List TestCase} {ids : Json}

/-! ## 3. Faults that are not the request's own -/

/-- The cases are chosen, or an id is unknown, unless the ids are not listed. -/
theorem chosen_eq_internal_iff : chosen cases ids = .error .internal ↔ ids.IsUnlisted := by
  rw [← selection_eq_error_iff]
  unfold chosen
  cases selection ids with
  | error fault => simp
  | ok wanted =>
      cases wanted with
      | nil => simp
      | cons id rest =>
          dsimp only
          split <;> simp

/-- The request brings a suite together with ids that are not listed. -/
def Misselects (r : Request) : Prop := ∃ data suite,
  bodyJson? r = some data ∧ Suite.ofJson data .null = .ok suite ∧ (data.getD "caseIds").IsUnlisted

/-- **Only such a request** has a fault that is not its own. -/
theorem suiteOf_eq_internal_iff : suiteOf r = .error .internal ↔ Misselects r := by
  constructor
  · intro h
    cases hbody : (bodyJson? r).filter Json.isTruthy with
    | none =>
        unfold suiteOf at h
        rw [hbody] at h
        cases h
    | some data =>
        have hdata := (Option.filter_eq_some_iff.mp hbody).1
        cases hsuite : Suite.ofJson data .null with
        | error fault =>
            rw [suiteOf_eq_error hbody hsuite] at h
            obtain ⟨v, rfl⟩ | ⟨f, rfl⟩ | ⟨id, rfl⟩ := Suite.ofJson_eq_error Json.isRecord_null hsuite
            · cases h
            · cases h
            · cases h
        | ok suite =>
            refine ⟨data, suite, hdata, hsuite, (@chosen_eq_internal_iff suite.testCases _).mp ?_⟩
            rw [suiteOf_eq hdata hsuite] at h
            cases hchosen : chosen suite.testCases (data.getD "caseIds") with
            | ok chosen =>
                rw [hchosen] at h
                cases h
            | error fault =>
                rw [hchosen] at h
                cases h
                rfl
  · rintro ⟨data, suite, hdata, hsuite, hids⟩
    rw [suiteOf_eq hdata hsuite, chosen_eq_internal_iff.mpr hids]
    rfl

theorem runOf_eq_internal_iff : s.runOf r = .error .internal ↔ Misselects r := by
  rw [← suiteOf_eq_internal_iff]
  unfold runOf
  cases suiteOf r with
  | error fault => simp [Except.bind]
  | ok suite =>
      rw [Except.bind]
      cases Run.create suite.project suite.testCases suite.config s.supervisor.now (s.made + 1) <;>
        exact iff_of_false nofun nofun

/-- Every other fault is answered as one of the request. -/
theorem StartFault.status_answer (fault : StartFault) :
    fault = .internal ∧ fault.answer.status = 500 ∨ fault ≠ .internal ∧ fault.answer.status = 400 := by
  cases fault with
  | internal => exact .inl ⟨rfl, rfl⟩
  | noObject | suite | config | unknownCase => exact .inr ⟨nofun, rfl⟩

/-! ## 4. Requests to start a run -/

/-- How a request to start a run is answered, and what it leaves. It is answered as having the run started, or as being
    at fault itself, except where it misselects. The run is started if it is accepted, or if one with its id waits in
    memory. A run is taken over exactly if it is started and none with its id is in memory. Any other answer leaves the
    supervisor as it was, but for what goes on by itself with a run in memory that has the id. -/
structure Answered (s : Service) (r : Request) : Prop where
  status : (s.answer r).1.status ∈ [202, 400, 500]
  inside : (s.answer r).1.status = 500 ↔ Misselects r
  started : (s.answer r).1.status = 202 ↔
    ∃ run, s.runOf r = .ok run ∧ (s.supervisor.accepts run = true ∨ s.supervisor.Waits run.id)
  registered : ∀ id, s.supervisor.tally id < (s.answer r).2.supervisor.tally id ↔
    (s.answer r).1.status = 202 ∧ ∃ run, s.runOf r = .ok run ∧ run.id = id ∧ s.supervisor.state? id = none
  unchanged : (s.answer r).1.status ≠ 202 → (s.answer r).2.supervisor = s.supervisor ∨
    ∃ run, s.runOf r = .ok run ∧ (s.supervisor.state? run.id).isSome = true ∧
      (s.answer r).2.supervisor = s.supervisor.settle run.id

/-- A request that brings no run is refused for its own fault, unless it misselects. -/
theorem answered_of_error {fault : StartFault} (hanswer : s.answer r = s.startRun r)
    (hrun : s.runOf r = .error fault) : s.Answered r := by
  obtain ⟨e, hsame⟩ := startRun_of_error hrun
  rw [← hanswer] at e hsame
  have hinternal : Misselects r ↔ fault = .internal := by
    rw [← runOf_eq_internal_iff (s := s), hrun, Except.error.injEq]
  have hstatus := fault.status_answer
  rw [← e] at hstatus
  have hnot : (s.answer r).1.status ≠ 202 := by omega
  exact
    { status := by
        simp only [List.mem_cons, List.not_mem_nil, or_false]
        omega
      inside := by
        rw [hinternal]
        obtain ⟨hfault, h500⟩ | ⟨hfault, h400⟩ := hstatus
        · exact iff_of_true h500 hfault
        · exact iff_of_false (by omega) hfault
      started := by simp [hnot, hrun]
      registered := fun id => by simp [hnot, hsame]
      unchanged := fun _ => .inl hsame }

theorem not_misselects_of_ok (hrun : s.runOf r = .ok run) : ¬ Misselects r := by
  intro hmisselects
  rw [runOf_eq_internal_iff.mpr hmisselects] at hrun
  cases hrun

/-- A request that brings a run leaves the supervisor as starting the run does, and what goes on by itself after. -/
theorem supervisor_answer_of_ok (hanswer : s.answer r = s.startRun r) (hrun : s.runOf r = .ok run) :
    (s.answer r).2.supervisor = (s.supervisor.launch run).2.after (Supervisor.course.map (.occur run.id)) := by
  rw [hanswer, startRun_of_ok hrun, Service.started]
  cases (s.supervisor.launch run).1 <;> rfl

/-- Nobody is taken over as it is answered but the run, and it is if it is accepted. -/
theorem lt_tally_answer_iff (hs : s.supervisor.Sound) (hanswer : s.answer r = s.startRun r)
    (hrun : s.runOf r = .ok run) (hb : ¬ s.supervisor.Breaks (.register run)) (id : String) :
    s.supervisor.tally id < (s.answer r).2.supervisor.tally id ↔ run.id = id ∧ s.supervisor.accepts run = true := by
  rw [supervisor_answer_of_ok hanswer hrun, Supervisor.tally_launch hs (pending_of_runOf hrun) hb]
  split <;> simp_all

/-- A request whose run is started is answered 202. The run was accepted, unless one with its id was in memory. -/
theorem answered_of_started {u : Unit} (hs : s.supervisor.Sound) (hanswer : s.answer r = s.startRun r)
    (hrun : s.runOf r = .ok run) (hb : ¬ s.supervisor.Breaks (.register run))
    (hl : (s.supervisor.launch run).1 = .ok u) : s.Answered r := by
  have hstatus : (s.answer r).1.status = 202 := by
    rw [hanswer, startRun_of_ok hrun, Service.started, hl]
    rfl
  have hstarted := (Supervisor.launch_ok_iff (pending_of_runOf hrun) hb).1.mp hl
  have hnone : s.supervisor.accepts run = true ↔ s.supervisor.state? run.id = none := by
    refine ⟨fun ha => (Supervisor.not_knows_of_accepts ha).2, fun hn => hstarted.resolve_right ?_⟩
    rintro ⟨st, hst, -⟩
    rw [hn] at hst
    cases hst
  exact
    { status := by simp [hstatus]
      inside := by simp [hstatus, not_misselects_of_ok hrun]
      started := by simp [hstatus, hrun, hstarted]
      registered := fun id => by
        rw [lt_tally_answer_iff hs hanswer hrun hb, hnone]
        constructor
        · rintro ⟨rfl, hn⟩
          exact ⟨hstatus, run, hrun, rfl, hn⟩
        · rintro ⟨-, run', hrun', rfl, hn⟩
          rw [hrun] at hrun'
          cases hrun'
          exact ⟨rfl, hn⟩
      unchanged := fun hne => absurd hstatus hne }

/-- A request whose run is refused is answered 400, and changes nothing but what goes on by itself. -/
theorem answered_of_refused {refusal : Refusal} (hs : s.supervisor.Sound) (hanswer : s.answer r = s.startRun r)
    (hrun : s.runOf r = .ok run) (hb : ¬ s.supervisor.Breaks (.register run))
    (hl : (s.supervisor.launch run).1 = .error refusal) : s.Answered r := by
  obtain ⟨hok, hrefused⟩ := Supervisor.launch_ok_iff (pending_of_runOf hrun) hb
  obtain ⟨hkind, hsame⟩ := hrefused refusal hl
  have hstatus : (s.answer r).1.status = 400 := by
    rw [hanswer, startRun_of_ok hrun, Service.started, hl]
    obtain rfl | rfl := hkind <;> rfl
  have hne : (s.answer r).1.status ≠ 202 := by omega
  have hnever : ¬ (s.supervisor.accepts run = true ∨ s.supervisor.Waits run.id) := by
    intro hstarted
    have hstarted := hok.mpr hstarted
    rw [hl] at hstarted
    cases hstarted
  have hsettled : (s.answer r).2.supervisor = s.supervisor.settle run.id := by
    rw [supervisor_answer_of_ok hanswer hrun, hsame, Supervisor.settle_eq_after]
  exact
    { status := by simp [hstatus]
      inside := by simp [hstatus, not_misselects_of_ok hrun]
      started := by simp [hstatus, hrun, hnever]
      registered := fun id => by
        rw [lt_tally_answer_iff hs hanswer hrun hb]
        exact iff_of_false (fun htaken => hnever (.inl htaken.2)) fun hstarted => hne hstarted.1
      unchanged := fun _ => by
        cases hst : s.supervisor.state? run.id with
        | some st => exact .inr ⟨run, hrun, by rw [hst, Option.isSome_some], hsettled⟩
        | none =>
            refine .inl (hsettled.trans (Supervisor.settle_of_quiet fun o _ => ?_))
            rw [Supervisor.change?, hst, Option.bind_none] }

/-- The empty suite, beside a number in the place of the ids. -/
def numberForIds : Request :=
  { startRequest with body := (Json.obj [("caseIds", .int 5), ("testCases", .arr [])]).compact }

/-- The empty suite. -/
def emptySuite : Request := { startRequest with body := (Json.obj [("testCases", .arr [])]).compact }

/-- The first run of the empty suite. -/
def emptyRun : Run where
  id := Run.newId ⟨0⟩ 1
  project := Suite.unnamedProject
  testCases := []
  config := {}
  counts := { total := 0, pending := 0 }
  caseResults := []
  createdAt := ⟨0⟩

/-- A service after a history. -/
def serviceAfter (h : List Move) : Service where
  supervisor := (Supervisor.new {} { store := .memory [] } ⟨0⟩).after h

theorem runOf_emptySuite (s : Service) (hnow : s.supervisor.now = ⟨0⟩) (hmade : s.made = 0) :
    s.runOf emptySuite = .ok emptyRun := by
  have hbody : bodyJson? emptySuite = some (.obj [("testCases", .arr [])]) :=
    bodyJson?_compact startRequest_posts.2 rfl (by simp [Json.Proper, Json.HaveProper, Json.AreProper]) rfl
  have hsuite : Suite.ofJson (.obj [("testCases", .arr [])]) .null =
      .ok { project := Suite.unnamedProject, config := {}, testCases := [] } := rfl
  rw [runOf, suiteOf_eq hbody hsuite, hnow, hmade]
  rfl

end Service

end Http

end StepRunner
