import StepRunner.Proofs.CommandLine.Command
import StepRunner.Proofs.CommandLine.Options
import StepRunner.Proofs.Http.Starting

/-!
# Three ways to choose cases

Cases of a suite are chosen by their ids: where the suite is loaded from a file, by the options of a command, and by
a request that brings the suite. `Selection` is one choice made in the three ways, and `selections_agree` says that
it comes to the same cases (`Selects`), or is refused (`Refuses`), in all of them.
-/

namespace StepRunner

/-! ## 1. One choice made in three ways -/

open CommandLine Http Files

variable {σ : Type} {w : Surroundings σ} {words : List String} {o : Options} {s : Service} {r : Request}
  {raw : Json} {suite : Suite} {ids : List String} {cases : List TestCase}

/-- Cases of a suite are chosen by ids: from the file of a command, which is also loaded by itself, by the options of
    the command, and by a request that brings the suite together with the ids. The command may ask for more, as long
    as the suite is accepted with it. -/
structure Selection (raw : Json) (ids : List String) (w : Surroundings σ) (words : List String) (o : Options)
    (r : Request) : Prop where
  offers : Offers w.files o raw
  reads : readOptions words = .options o
  cases : o.cases = ids
  accepted : ∃ whole, Suite.ofJson raw o.overrides = .ok whole
  settings : ∃ settings, Settings.ofEnvironment w.environment = .ok settings
  posts : r.destination = .found .runs ∧ r.method = "POST"
  body : ∃ data, Service.bodyJson? r = some data ∧ data.get? "caseIds" = some (.arr (ids.map .str)) ∧
    ∀ key ≠ "caseIds", data.get? key = raw.get? key

/-- The choice comes to these cases in all three ways. A command that stops before its session does not do so with a
    code of its own, but for the files or for the supervisor; a request has its run started by the supervisor. -/
structure Selects (ids : List String) (w : Surroundings σ) (words : List String) (o : Options) (s : Service)
    (r : Request) (cases : List TestCase) : Prop where
  distinct : (cases.map (·.id)).Nodup
  loaded : loadCases w.files (Path.ofString o.suite) (.arr (ids.map .str)) = .ok cases
  commanded : ∃ suite, loadSuite w.files o = .ok suite ∧ suite.testCases = cases
  opens : ∀ x, opening w words = .ok x → x.run.testCases = cases
  stops : ∀ t code, opening w words = .error t → t.ending ≠ .exit code
  started : ∃ run, run.testCases = cases ∧ (s.answer r).2.supervisor = (s.supervisor.start run).2 ∧
    ((s.supervisor.start run).1 = .ok () → (s.answer r).1.status = 202)

/-- The choice is refused in all three ways, for the ids that are missing. Nothing is written, and no run is made. -/
structure Refuses (ids : List String) (w : Surroundings σ) (words : List String) (o : Options) (s : Service)
    (r : Request) (missing : List String) : Prop where
  loaded : loadCases w.files (Path.ofString o.suite) (.arr (ids.map .str)) = .error (.fault (.unknownCases missing))
  commanded : perform w words =
    { ending := .exit 2
      told := [⟨.error, "Failed to load suite: " ++ (SuiteFault.unknownCases missing).message⟩]
      files := w.files }
  started : s.answer r = (Service.StartFault.unknownCase.answer, s)

theorem selectCases_some (hsome : ids ≠ []) : selectCases cases ids =
    if ∀ id ∈ ids, id ∈ cases.map (·.id) then .ok (cases.filter fun c => c.id ∈ ids)
    else .error (.unknownCases (unknownIds cases ids)) := by
  rw [selectCases_eq]
  simp only [hsome, false_or]

/-- A command opens a session for the cases that it loads. -/
theorem opening_eq {settings : Settings} (hread : readOptions words = .options o)
    (hsettings : Settings.ofEnvironment w.environment = .ok settings) (hsuite : loadSuite w.files o = .ok suite) :
    opening w words = openSuite w (o.applied settings) suite o := by
  unfold opening openWith
  rw [hread]
  dsimp only
  rw [hsettings, hsuite]

/-! ## 2. What each way comes to -/

namespace Selection

/-- What is loaded from the file by itself. -/
theorem loadCases_eq (h : Selection raw ids w words o r) (hload : Suite.ofJson raw .null = .ok suite) :
    loadCases w.files (Path.ofString o.suite) (.arr (ids.map .str)) =
      (selectCases suite.testCases ids).mapError .fault := by
  obtain ⟨c, hread, hraw⟩ := h.offers
  have hbytes := ofBytes_eq c .null
  rw [hraw] at hbytes
  unfold loadCases
  rw [readSuite_eq_ok_iff.mpr hread, selection_strings]
  show (Suite.ofBytes c.toBytes .null).mapError LoadStop.fault >>= _ = _
  rw [hbytes.trans hload]
  rfl

/-- What the command loads. -/
theorem loadSuite_eq (h : Selection raw ids w words o r) (hload : Suite.ofJson raw .null = .ok suite) :
    ∃ whole : Suite, loadSuite w.files o = ((selectCases suite.testCases ids).map fun testCases =>
      { whole with testCases }).mapError .fault := by
  obtain ⟨c, hread, hraw⟩ := h.offers
  obtain ⟨whole, hwhole⟩ := h.accepted
  have hbytes := ofBytes_eq c o.overrides
  rw [hraw] at hbytes
  rw [loadSuite_of_read hread, hbytes.trans hwhole, h.cases,
    Suite.testCases_congr Json.isRecord_null (isRecord_overrides o) hload hwhole]
  exact ⟨whole, rfl⟩

/-- What the request brings. -/
theorem suiteOf_eq (h : Selection raw ids w words o r) (hload : Suite.ofJson raw .null = .ok suite) :
    Service.suiteOf r = (Service.chosen suite.testCases (.arr (ids.map .str))).map fun testCases =>
      { suite with testCases } := by
  obtain ⟨data, hdata, hids, hrest⟩ := h.body
  have hbeside : Suite.ofJson data .null = .ok suite := by
    refine Suite.ofJson_beside Json.isRecord_null hload fun key hkey => hrest key ?_
    rintro rfl
    exact absurd hkey (by decide)
  rw [Service.suiteOf_eq hdata hbeside, Json.getD_of_get? hids]

end Selection

/-! ## 3. Agreement -/

/-- **Three ways to choose cases agree.** If each listed id is the id of a case then all of them come to the cases
    whose id is listed, each once and in the order of the suite; else all of them refuse. -/
theorem selections_agree (h : Selection raw ids w words o r) (hload : Suite.ofJson raw .null = .ok suite)
    (hsome : ids ≠ []) (s : Service) :
    ((∀ id ∈ ids, id ∈ suite.testCases.map (·.id)) →
      Selects ids w words o s r (suite.testCases.filter fun c => c.id ∈ ids)) ∧
    ((∃ id ∈ ids, id ∉ suite.testCases.map (·.id)) →
      Refuses ids w words o s r (unknownIds suite.testCases ids)) := by
  have hdistinct := Suite.nodup_testCases Json.isRecord_null hload
  obtain ⟨settings, hsettings⟩ := h.settings
  obtain ⟨whole, hsuite⟩ := h.loadSuite_eq hload
  have hcases := h.loadCases_eq hload
  have hanswer := Service.answer_eq_startRun (s := s) h.posts
  have hbrought := h.suiteOf_eq hload
  rw [Service.chosen_strings hdistinct hsome] at hbrought
  rw [selectCases_some hsome] at hsuite hcases
  constructor
  · intro hknown
    rw [if_pos hknown] at hsuite hcases hbrought
    have hchosen : ((suite.testCases.filter fun c => c.id ∈ ids).map (·.id)).Nodup :=
      hdistinct.sublist (List.filter_sublist.map _)
    obtain ⟨run, hrun, hstart, hanswered⟩ := Service.startRun_of_suite (s := s) hbrought hchosen
    have hopening := opening_eq h.reads hsettings hsuite
    exact
      { distinct := hchosen
        loaded := hcases
        commanded := ⟨_, hsuite, rfl⟩
        opens := by
          intro x hx
          rw [(Run.create_eq_ok (openSuite_eq_ok (hopening.symm.trans hx)).1).2]
        stops := fun t code ht => not_exit_of_openSuite hchosen (hopening.symm.trans ht)
        started := by
          rw [hanswer]
          refine ⟨run, ?_, congrArg (·.supervisor) hstart, hanswered⟩
          rw [(Run.create_eq_ok hrun).2] }
  · rintro ⟨id, hid, hunknown⟩
    have hnot : ¬ ∀ id ∈ ids, id ∈ suite.testCases.map (·.id) := fun hall => hunknown (hall id hid)
    rw [if_neg hnot] at hsuite hcases hbrought
    exact
      { loaded := hcases
        commanded := by
          unfold perform opening openWith
          rw [h.reads]
          dsimp only
          rw [hsettings, hsuite]
          rfl
        started := by
          rw [hanswer, Service.startRun, hbrought]
          rfl }

/-- A choice with a command that asks for nothing else. -/
theorem Selection.ofCaseWords {path : String} {data : Json}
    (hoffers : Offers w.files { suite := path } raw) (hload : Suite.ofJson raw .null = .ok suite)
    (hsettings : ∃ settings, Settings.ofEnvironment w.environment = .ok settings)
    (hposts : r.destination = .found .runs ∧ r.method = "POST") (hbody : Service.bodyJson? r = some data)
    (hids : data.get? "caseIds" = some (.arr (ids.map .str)))
    (hrest : ∀ key ≠ "caseIds", data.get? key = raw.get? key) :
    Selection raw ids w (caseWords path ids) { suite := path, cases := ids } r where
  offers := hoffers
  reads := readOptions_caseWords path ids
  cases := rfl
  accepted := ⟨suite, hload⟩
  settings := hsettings
  posts := hposts
  body := ⟨data, hbody, hids, hrest⟩

/-- A suite of two cases. -/
def shopSuite : Json :=
  .obj [("testCases", .arr
    [ .obj [("id", .str "1"), ("title", .str "Pay"), ("steps", .arr [])],
      .obj [("id", .str "2"), ("title", .str ""), ("steps", .arr [.str ""])] ])]

theorem shopSuite_eq : Suite.ofJson shopSuite .null = .ok
    { project := "default", config := {}
      testCases := [{ id := "1", title := "Pay" }, { id := "2", title := "", steps := [""] }] } :=
  rfl

/-- The suite in the only file there is, and a page on which nothing goes wrong. -/
def shopFolder : Surroundings ScriptState where
  files := { files := [(["shop.json"], .text shopSuite.compact)] }
  now := ⟨0⟩
  browser := Script.browser {}
  browserState := Script.start {}

/-- A request that brings the suite together with ids. -/
def shopRequest (ids : List String) : Request :=
  { startRequest with body := (Json.obj (("caseIds", .arr (ids.map .str)) :: shopSuite.fieldList)).compact }

/-- Ids are chosen from the suite of two cases. -/
theorem selection_shop (ids : List String) : Selection shopSuite ids shopFolder (caseWords "shop.json" ids)
    { suite := "shop.json", cases := ids } (shopRequest ids) := by
  have hoffers : Offers shopFolder.files { suite := "shop.json" } shopSuite := by
    refine ⟨.text shopSuite.compact, by decide +kernel, ?_⟩
    have hdecoded : Text.Utf8.decode (Content.text shopSuite.compact).toBytes = .ok shopSuite.compact.toList := by
      decide +kernel
    have hproper : shopSuite.Proper := by simp [shopSuite, Json.Proper, Json.AreProper, Json.HaveProper]
    unfold valueIn?
    rw [hdecoded]
    dsimp only
    rw [unifyLineEnds_of_not_mem (Json.not_mem_compact (by decide) hproper), String.ofList_toList,
      Json.parse_compact hproper rfl]
    rfl
  have hproper : (Json.obj (("caseIds", .arr (ids.map .str)) :: shopSuite.fieldList)).Proper := by
    have hids : Json.AreProper (ids.map .str) := Json.areProper_iff.mpr fun j hj => by
      obtain ⟨id, -, rfl⟩ := List.mem_map.mp hj
      trivial
    simpa [shopSuite, Json.fieldList, Json.Proper, Json.AreProper, Json.HaveProper] using hids
  have hwritable : (Json.obj (("caseIds", .arr (ids.map .str)) :: shopSuite.fieldList)).isWritable = true := by
    have hids (ids : List String) : Json.areWritable (ids.map .str) = true := by
      induction ids with
      | nil => rfl
      | cons id rest ih => exact ih
    simp [shopSuite, Json.fieldList, Json.isWritable, Json.haveWritable, Json.areWritable, hids]
  refine Selection.ofCaseWords hoffers shopSuite_eq ⟨{}, by decide +kernel⟩
    ⟨startRequest_posts.1, rfl⟩ (Service.bodyJson?_compact startRequest_posts.2 rfl hproper hwritable) rfl fun key hkey => ?_
  show List.lookup key (("caseIds", _) :: shopSuite.fieldList) = List.lookup key shopSuite.fieldList
  rw [List.lookup_cons, beq_eq_false_iff_ne.mpr hkey]

/-- One of the two cases is listed twice, and comes to itself; beside an id that no case has it is refused. -/
theorem selections_agree_shop :
    let s : Service := { supervisor := .new {} { store := .memory [] } ⟨0⟩ }
    Selects ["2", "2"] shopFolder (caseWords "shop.json" ["2", "2"]) { suite := "shop.json", cases := ["2", "2"] } s
      (shopRequest ["2", "2"]) [{ id := "2", title := "", steps := [""] }] ∧
    Refuses ["2", "9"] shopFolder (caseWords "shop.json" ["2", "9"]) { suite := "shop.json", cases := ["2", "9"] } s
      (shopRequest ["2", "9"]) ["9"] := by
  intro s
  exact ⟨(selections_agree (selection_shop _) shopSuite_eq (by decide) s).1 (by decide),
    (selections_agree (selection_shop _) shopSuite_eq (by decide) s).2 (by decide)⟩

end StepRunner
