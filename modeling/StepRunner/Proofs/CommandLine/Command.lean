import StepRunner.Browser.Script
import StepRunner.Proofs.CommandLine.Loading
import StepRunner.Proofs.CommandLine.Session

/-!
# What a command leaves behind

A command comes to a session, or it ends before. `Leaves` says what it can leave behind, in whatever way
its session goes on; a command whose cases come one after the other is one of them (`leaves_perform`).

* `opening_eq_exit`: a command that ends with a code before its session found no suite to run;
* `attended_of_opening`: the session of a command begins with its run in memory and in its folder;
* `concludes_of_leads`: the session ends with a code that tells whether the run passed, and the log and
  the report stand beside the snapshot, which is that of the run at the end;
* `exit_code_and_files`: all of it together.
-/

namespace StepRunner

/-! ## 1. Runs that passed -/

/-- Nothing failed and nothing is left: every key has a result that is a pass. -/
theorem CaseResults.tally_eq_zero_iff {rs : CaseResults} (hk : (rs.map (·.1)).Nodup) :
    rs.tally (some .fail) = 0 ∧ rs.tally none = 0 ↔
      ∀ k ∈ rs.map (·.1), ∃ r, rs.result? k = some r ∧ r.status = .pass := by
  unfold tally
  rw [List.countP_eq_zero, List.countP_eq_zero]
  simp only [decide_eq_true_eq]
  constructor
  · rintro ⟨hfail, hnone⟩ k hmem
    obtain ⟨v, hv, he⟩ := exists_lookup_of_mem hmem
    cases v with
    | none => exact absurd rfl (hnone _ he)
    | some r =>
        refine ⟨r, by rw [result?, hv]; rfl, ?_⟩
        cases hs : r.status with
        | pass => rfl
        | fail => exact absurd (congrArg some hs) (hfail _ he)
  · intro h
    have hpass (e : String × Option CaseResult) (he : e ∈ rs) :
        e.2.map (·.status) = some .pass := by
      have hmem := List.mem_map_of_mem (f := (·.1)) he
      obtain ⟨r, hr, hs⟩ := h e.1 hmem
      obtain ⟨v, hv, hmem'⟩ := exists_lookup_of_mem hmem
      -- no key has two entries
      have he' : e = (e.1, v) := List.inj_on_of_nodup_map hk he hmem' rfl
      rw [result?, hv] at hr
      obtain rfl : v = some r := hr
      rw [he']
      exact congrArg some hs
    exact ⟨fun e he hf => by simp [hpass e he] at hf, fun e he hn => by simp [hpass e he] at hn⟩

/-- The run is complete, and every case of it passed. -/
def Run.Passed (run : Run) : Prop :=
  run.status = .completed ∧
    ∀ c ∈ run.testCases, ∃ r, run.caseResults.result? c.id = some r ∧ r.status = .pass

theorem Run.Aggregate.passed_iff {run : Run} (h : run.Aggregate) :
    run.Passed ↔ run.status = .completed ∧ run.counts.failed = 0 := by
  have hdistinct := h.keys ▸ h.distinct
  refine and_congr_right fun hs => ?_
  have hpending := h.completed hs
  rw [h.pending, Int.natCast_eq_zero] at hpending
  have htally := CaseResults.tally_eq_zero_iff hdistinct
  rw [h.keys, List.forall_mem_map] at htally
  rw [h.failed, Int.natCast_eq_zero, ← htally]
  exact ⟨fun hp => hp.1, fun hf => ⟨hf, hpending⟩⟩

namespace CommandLine

open Files Store

variable {σ : Type} {w : Surroundings σ} {words : List String} {o : Options} {x : Opening σ}
  {s : Session σ} {run : Run} {root : Path} {id : String} {files files' : Tree} {code : Nat}
  {settings : Settings} {suite : Suite} {t : Transcript}

/-- **The code of a run** is zero exactly if the run passed, and else one. -/
theorem exitCode_spec (h : run.Aggregate) :
    (exitCode run = 0 ↔ run.Passed) ∧ (exitCode run = 0 ∨ exitCode run = 1) := by
  rw [h.passed_iff]
  unfold exitCode
  split
  · next hp => exact ⟨iff_of_true rfl hp, .inl rfl⟩
  · next hp => exact ⟨iff_of_false nofun hp, .inr rfl⟩

/-! ## 2. Files beside the snapshot -/

theorem keeps_writeImages (root : Path) (id : String) (images : List (String × List UInt8))
    (files : Tree) :
    Tree.Keeps (placeOf root id "run.json") files (writeImages (runFolder root id) files images).2 := by
  induction images generalizing files with
  | nil => exact .refl _ _
  | cons image rest ih =>
      obtain ⟨name, bytes⟩ := image
      have hfolders := keeps_makeFolders (placeOf root id "run.json") files
        ((runFolder root id).child Report.imageFolder)
      unfold writeImages
      dsimp only
      split
      · next hm => rwa [hm] at hfolders
      · next files₁ hm =>
          rw [hm] at hfolders
          split
          · exact hfolders
          · next files₂ hw =>
              obtain ⟨q, e, hq, -, rfl⟩ := write_eq_ok hw
              -- whatever the image is called, it stands below the folder of the images
              have hplace : placeOf root id "run.json" ≠ q := by
                rw [place_of_find hq, Path.child, placeFrom_append, placeFrom_child (by decide)]
                unfold placeFrom placeOf
                rw [List.foldl_cons, List.foldl_nil]
                split <;> simp [Report.imageFolder]
              exact (hfolders.trans (Tree.keeps_addFile hplace)).trans (ih _)

theorem keeps_writeReport (root : Path) (id : String) (r : Report) (files : Tree) :
    Tree.Keeps (placeOf root id "run.json") files (writeReport (runFolder root id) files r).2 := by
  have himages := keeps_writeImages root id r.screenshots files
  unfold writeReport
  split
  · next hm => rwa [hm] at himages
  · next files₁ hm =>
      rw [hm] at himages
      split
      · exact himages
      · next files₂ hw => exact himages.trans (keeps_write (by decide) (by decide) hw)

theorem keeps_withLog (files : Tree) (journal : List JournalLine) :
    Tree.Keeps (placeOf root id "run.json") files (withLog (runFolder root id) files journal) := by
  unfold withLog
  cases hw : Files.write files (logFile (runFolder root id)) _ with
  | error f => exact .refl _ _
  | ok files' => exact keeps_write (by decide) (by decide) hw

/-- **A report that ends with a code** has that of the run, and leaves the snapshot as it is. -/
theorem conclude_of_exit (h : (conclude s run (runFolder root id) o).ending = .exit code) :
    code = exitCode run ∧ Tree.Keeps (placeOf root id "run.json")
      (storedFiles s.supervisor.archive.store) (conclude s run (runFolder root id) o).files := by
  unfold conclude at h ⊢
  cases hr : Report.ofRun run s.supervisor.now with
  | error f =>
      simp only [hr] at h
      cases h
  | ok report =>
      have hreport := keeps_writeReport root id report (storedFiles s.supervisor.archive.store)
      cases hw : writeReport (runFolder root id) (storedFiles s.supervisor.archive.store) report with
      | mk written files =>
          rw [hw] at hreport
          cases written with
          | error f =>
              simp only [hr, hw] at h
              cases h
          | ok _ =>
              cases hc : closingLines run (runFolder root id) with
              | error f =>
                  simp only [hr, hw, hc] at h
                  cases h
              | ok lines =>
                  simp only [hr, hw, hc] at h ⊢
                  exact ⟨(Ending.exit.inj h).symm, hreport.trans (keeps_withLog _ _)⟩

/-! ## 3. Commands that come to a session -/

theorem openIn_eq_ok {folder : Path} (h : openIn w settings files folder run o = .ok x) :
    ((supervisorFor settings files w.now).register run).1 = .ok () ∧
      x.options = o ∧ x.run = run ∧ x.folder = folder ∧ x.session.runId = run.id ∧
      x.session.supervisor =
        ((((supervisorFor settings files w.now).register run).2.subscribe run.id).2.start run).2 := by
  unfold openIn at h
  dsimp only at h
  split at h
  · cases h
  · next s₁ hregister =>
      rw [hregister]
      split at h
      · cases h
      · next n s₂ hsubscribe =>
          rw [hsubscribe]
          split at h
          · cases h
          · next s₃ hstart =>
              rw [hstart]
              cases h
              exact ⟨rfl, rfl, rfl, rfl, rfl, rfl⟩

theorem openSuite_eq_ok (h : openSuite w settings suite o = .ok x) :
    Run.create suite.project suite.testCases suite.config w.now 1 = .ok x.run ∧
      x.folder = runFolder settings.outputRoot x.run.id ∧ ∃ files files',
        makeFolders w.files x.folder = (.ok (), files) ∧
        Files.write files (logFile x.folder) (.text "") = .ok files' ∧
        openIn w settings files' x.folder x.run o = .ok x := by
  unfold openSuite at h
  split at h
  · cases h
  · next run hrun =>
      dsimp only at h
      split at h
      · cases h
      · next files hmade =>
          split at h
          · cases h
          · next files' hwrite =>
              obtain ⟨-, -, hx, hfolder, -⟩ := openIn_eq_ok h
              rw [hx, hfolder]
              exact ⟨hrun, rfl, files, files', hmade, hwrite, h⟩

/-- What a command has read that comes to a session. -/
theorem opening_eq_ok (h : opening w words = .ok x) :
    readOptions words = .options x.options ∧ ∃ settings suite,
      Settings.ofEnvironment w.environment = .ok settings ∧
      loadSuite w.files x.options = .ok suite ∧
      openSuite w (x.options.applied settings) suite x.options = .ok x := by
  unfold opening at h
  split at h
  · cases h
  · cases h
  · next o hread =>
      unfold openWith at h
      split at h
      · cases h
      · next settings hsettings =>
          split at h
          · cases h
          · cases h
          · next suite hload =>
              obtain ⟨-, -, files, files', -, -, hopen⟩ := openSuite_eq_ok h
              rw [(openIn_eq_ok hopen).2.1]
              exact ⟨hread, settings, suite, hsettings, hload, h⟩

/-- What stops a run whose folder there is, is a refusal. -/
theorem not_exit_of_openIn {folder : Path} (h : openIn w settings files folder run o = .error t) :
    t.ending ≠ .exit code := by
  unfold openIn at h
  dsimp only at h
  split at h
  · cases h
    nofun
  · split at h
    · cases h
      nofun
    · split at h
      · cases h
        nofun
      · cases h

/-- What stops cases with ids of their own is a fault of the files, or a refusal. -/
theorem not_exit_of_openSuite (hdistinct : (suite.testCases.map (·.id)).Nodup)
    (h : openSuite w settings suite o = .error t) : t.ending ≠ .exit code := by
  unfold openSuite Run.create Run.make at h
  rw [if_neg (by simpa using Run.not_hasRepeats_iff_nodup.mpr hdistinct)] at h
  dsimp only at h
  split at h
  · cases h
    nofun
  · split at h
    · cases h
      nofun
    · exact not_exit_of_openIn h

/-- **A command that ends with a code before its session** found no suite, or not the cases that it was
    to run: the selected cases of a suite that is loaded have ids of their own. -/
theorem opening_eq_exit (h : opening w words = .error t) (hexit : t.ending = .exit code) :
    code = 2 ∧ t.files = w.files ∧ ∃ o, readOptions words = .options o ∧ Unloadable w.files o := by
  unfold opening at h
  split at h
  · cases h
    cases hexit
  · cases h
    cases hexit
  · next o hread =>
      unfold openWith at h
      split at h
      · cases h
        cases hexit
      · next settings hsettings =>
          split at h
          · cases h
            cases hexit
          · next f hload =>
              cases h
              cases hexit
              exact ⟨rfl, rfl, o, hread, loadSuite_fault_iff.mp ⟨f, hload⟩⟩
          · next suite hload =>
              obtain ⟨raw, config, hloads⟩ := loadSuite_eq_ok_iff.mp hload
              exact absurd hexit (not_exit_of_openSuite hloads.nodup h)

/-! ## 4. The session of a command -/

/-- The files of the run can be written into its folder, once that is made. -/
def Surroundings.Writes (w : Surroundings σ) (words : List String) : Prop :=
  ∀ o settings, readOptions words = .options o →
    Settings.ofEnvironment w.environment = .ok settings →
    ∀ name ∈ ["run.json.tmp", "run.json"],
      let folder := runFolder (o.applied settings).outputRoot (Run.newId w.now 1)
      ∃ files, Files.write (makeFolders w.files folder).2 (folder.child name) (.text "") = .ok files

theorem attends_launchKnown {s : Supervisor} {n : Nat} :
    Relation.ReflTransGen (Attends id n) s (s.launchKnown id).2 := by
  unfold Supervisor.launchKnown
  split
  · exact .refl
  · split
    · exact attends_occur .launch trivial
    · exact .refl

/-- A run in memory is started by launching it. -/
theorem attends_start {s : Supervisor} {n : Nat} (h : (s.state? run.id).isSome = true) :
    Relation.ReflTransGen (Attends run.id n) s (s.start run).2 := by
  have hlaunch : Relation.ReflTransGen (Attends run.id n) s (s.launch run).2 := by
    rw [Supervisor.launch, if_pos h]
    exact attends_launchKnown
  unfold Supervisor.start
  cases hs : s.launch run with
  | mk r s' =>
      rw [hs] at hlaunch
      exact hlaunch.trans (attends_settle _)

/-- **A session begins** with its run kept. -/
theorem attended_of_openIn {folder : Path} (ha : run.Aggregate) (hretains : 1 ≤ settings.retainedRuns)
    (hroom : Room settings.outputRoot files run.id)
    (h : openIn w settings files folder run o = .ok x) :
    Attended settings.outputRoot run x.session.supervisor := by
  obtain ⟨hregister, -, -, -, -, hs⟩ := openIn_eq_ok h
  rw [hs]
  have hfirst := attended_of_registered (s := supervisorFor settings files w.now) ha hretains hroom rfl
    hregister
  generalize ((supervisorFor settings files w.now).register run).2 = s₁ at hfirst
  have hsecond : Attended settings.outputRoot run (s₁.subscribe run.id).2 := by
    have hsound := Supervisor.sound_perform hfirst.sound (.subscribe run.id)
    obtain ⟨b, hb, -⟩ := s₁.subscribe_frame run.id
    change (s₁.subscribe run.id).2.Sound at hsound
    rw [hb] at hsound ⊢
    exact hfirst.congr hsound rfl rfl rfl
  obtain ⟨st, hst, -⟩ := hsecond.held
  exact hsecond.leads (attends_start (n := 0) (by rw [hst]; rfl))

/-- What the session of a command begins with. -/
theorem attended_of_opening (hwrites : w.Writes words) (h : opening w words = .ok x) :
    readOptions words = .options x.options ∧ ∃ settings suite raw config,
      Settings.ofEnvironment w.environment = .ok settings ∧
      Loads w.files x.options suite raw config ∧
      x.folder = runFolder (x.options.applied settings).outputRoot x.run.id ∧
      x.session.runId = x.run.id ∧
      x.run.testCases = suite.testCases ∧ x.run.config = suite.config ∧
      Attended (x.options.applied settings).outputRoot x.run x.session.supervisor := by
  obtain ⟨hread, settings, suite, hsettings, hload, hopen⟩ := opening_eq_ok h
  obtain ⟨raw, config, hloads⟩ := loadSuite_eq_ok_iff.mp hload
  obtain ⟨hcreate, hfolder, files, files', hmade, hlog, hin⟩ := openSuite_eq_ok hopen
  have hrun := (Run.create_eq_ok hcreate).2
  have hid : x.run.id = Run.newId w.now 1 := by rw [hrun]
  have hroom : Room (x.options.applied settings).outputRoot files x.run.id := by
    have hw := hwrites x.options settings hread hsettings
    rw [hfolder] at hmade
    rw [← hid] at hw
    dsimp only at hw
    rw [hmade] at hw
    obtain ⟨_, hdraft⟩ := hw "run.json.tmp" (by decide)
    obtain ⟨_, hsnap⟩ := hw "run.json" (by decide)
    exact room_of_made hmade hdraft hsnap
  have hlogged : Room (x.options.applied settings).outputRoot files' x.run.id := by
    rw [hfolder] at hlog
    exact hroom.write (by decide) (by decide) (by decide) hlog
  have hattended := attended_of_openIn (Run.aggregate_of_create hcreate) (le_max_right _ _) hlogged hin
  exact ⟨hread, settings, suite, raw, config, hsettings, hloads, hfolder, (openIn_eq_ok hin).2.2.2.2.1,
    by rw [hrun], by rw [hrun], hattended⟩

/-! ## 5. What is left behind -/

/-- What a command can leave behind, and the run as it is at the end, if it came to one. -/
inductive Leaves (w : Surroundings σ) (words : List String) : Option Run → Transcript → Prop where
  | early (t : Transcript) (h : opening w words = .error t) : Leaves w words none t
  | late (x : Opening σ) (s : Session σ) (h : opening w words = .ok x) (hs : x.session.Leads s) :
      Leaves w words (some (s.run?.getD x.run)) (x.finish s)

/-- A command whose cases come one after the other leaves something behind. -/
theorem leaves_perform (w : Surroundings σ) (words : List String) :
    ∃ final?, Leaves w words final? (perform w words) := by
  unfold perform
  cases h : opening w words with
  | error t => exact ⟨none, .early t h⟩
  | ok x => exact ⟨_, .late x _ h (Session.leads_runCases x.executor w.browser x.session x.run)⟩

/-- What a command leaves of a run that is over: a code that tells whether it passed, and its snapshot
    with an entry for every case that was selected, in the order of the suite. -/
structure Concludes (w : Surroundings σ) (o : Options) (code : Nat) (t : Transcript) (final : Run) :
    Prop where
  zero_iff : code = 0 ↔ final.Passed
  zero_or_one : code = 0 ∨ code = 1
  loads : ∃ suite raw config, Loads w.files o suite raw config ∧
    final.config = suite.config ∧ final.testCases = suite.testCases ∧
    final.toJson.get? "testResults" = some (.arr (suite.testCases.map final.caseJson))
  reads : ∃ settings c, Settings.ofEnvironment w.environment = .ok settings ∧
    Files.read t.files (snapshotFile (o.applied settings).outputRoot final.id) = .ok c ∧
    valueOf c = .ok final.toJson

/-- **A session that ends with a code** leaves what is left of its run. -/
theorem concludes_of_leads (hwrites : w.Writes words) (h : opening w words = .ok x)
    (hs : x.session.Leads s) (hexit : (x.finish s).ending = .exit code) :
    Concludes w x.options code (x.finish s) (s.run?.getD x.run) := by
  obtain ⟨-, settings, suite, raw, config, hsettings, hloads, hfolder, hid, hcases, hconfig, hattended⟩ :=
    attended_of_opening hwrites h
  obtain ⟨st, hst, hkept⟩ := (hattended.leads (hid ▸ hs.way)).held
  obtain ⟨files, hstore, hshows⟩ := hkept.shown
  have hfinal : s.run?.getD x.run = st.run := by
    unfold Session.run?
    rw [hs.runId, hid, Supervisor.run?_of_state? hst]
    rfl
  have hsame : st.run.id = x.run.id := Supervisor.id_of_state? hst
  have hcases' := hkept.cases.trans hcases
  have hconfig' := hkept.config.trans hconfig
  unfold Opening.finish at hexit ⊢
  rw [hfinal, hfolder, ← hsame] at hexit ⊢
  obtain ⟨rfl, hkeeps⟩ := conclude_of_exit hexit
  rw [hstore] at hkeeps
  obtain ⟨hzero, hone⟩ := exitCode_spec hkept.aggregate
  obtain ⟨c, hread, hvalue⟩ := hshows.read hkeeps (hconfig' ▸ hloads.proper) hkept.writable
  exact
    { zero_iff := hzero
      zero_or_one := hone
      loads := ⟨suite, raw, config, hloads, hconfig', hcases', by rw [← hcases']; rfl⟩
      reads := ⟨settings, c, hsettings, hread, hvalue⟩ }

/-- **The code and the files of a command** that ends with a code, whatever the page does, in whatever
    order the cases end and whether or not it is interrupted. The code is two exactly if there is no
    suite or not the cases that it was to run, and then nothing is written. Else there is a run, the code
    tells whether it is complete and every selected case passed, and its snapshot is in its folder. -/
theorem exit_code_and_files (w : Surroundings σ) (words : List String) (hwrites : w.Writes words) :
    (∃ final?, Leaves w words final? (perform w words)) ∧
    ∀ final? t code, Leaves w words final? t → t.ending = .exit code →
      ∃ o, readOptions words = .options o ∧
        (code = 2 ↔ Unloadable w.files o) ∧
        (code = 2 → t.files = w.files) ∧
        (code ≠ 2 → ∃ final, final? = some final ∧ Concludes w o code t final) := by
  refine ⟨leaves_perform w words, fun final? t code hleaves hexit => ?_⟩
  cases hleaves with
  | early t h =>
      obtain ⟨rfl, hfiles, o, hread, hno⟩ := opening_eq_exit h hexit
      exact ⟨o, hread, iff_of_true rfl hno, fun _ => hfiles, fun hne => absurd rfl hne⟩
  | late x s h hs =>
      have hend := concludes_of_leads hwrites h hs hexit
      have hcode : code ≠ 2 := by
        have := hend.zero_or_one
        omega
      obtain ⟨hread, settings, suite, -, hload, -⟩ := opening_eq_ok h
      have hloadable : ¬ Unloadable w.files x.options := by
        intro hno
        obtain ⟨f, hf⟩ := loadSuite_fault_iff.mpr hno
        rw [hload] at hf
        cases hf
      exact ⟨x.options, hread, iff_of_false hcode hloadable, fun hc => absurd hc hcode,
        fun _ => ⟨_, rfl, hend⟩⟩

/-- The text of a suite of two cases. -/
def shopText : String :=
  "\x7b\"testCases\":[" ++
    "\x7b\"id\":\"1\",\"title\":\"\",\"steps\":[\"Open \\\"http://a\\\"\"],\"expectedResult\":\"\"\x7d," ++
    "\x7b\"id\":\"2\",\"title\":\"\",\"steps\":[\"\"],\"expectedResult\":\"\"\x7d]\x7d"

/-- The file of the suite, and a page on which nothing goes wrong. -/
def shop : Surroundings ScriptState where
  files := { files := [(["shop.json"], .text shopText)] }
  now := ⟨0⟩
  browser := Script.browser {}
  browserState := Script.start {}

/-- The first of the two cases. -/
def firstOfShop : Options := { suite := "shop.json", cases := ["1"] }

/-- The command line that selects it. -/
def firstOfShopWords : List String := ["--suite", "shop.json", "--case", "1"]

theorem readOptions_firstOfShop : readOptions firstOfShopWords = .options firstOfShop := by
  decide +kernel

theorem writes_shop : shop.Writes firstOfShopWords := by
  intro o settings hread hsettings name hname
  obtain rfl : o = firstOfShop := Reading.options.inj (hread.symm.trans readOptions_firstOfShop)
  have hunset : Settings.ofEnvironment shop.environment = .ok {} := by decide +kernel
  obtain rfl : settings = {} := Except.ok.inj (hsettings.symm.trans hunset)
  have hwritten : ∀ name ∈ ["run.json.tmp", "run.json"],
      let folder := runFolder (firstOfShop.applied {}).outputRoot (Run.newId shop.now 1)
      (Files.write (makeFolders shop.files folder).2 (folder.child name) (.text "")).isOk = true := by
    decide +kernel
  have hok := hwritten name hname
  dsimp only at hok ⊢
  generalize Files.write _ _ _ = written at hok ⊢
  cases written with
  | error f => cases hok
  | ok files => exact ⟨files, rfl⟩

/-- One of the two cases is selected; it passes, and so does the command. -/
theorem exit_code_and_files_shop : shop.Writes firstOfShopWords ∧
    (perform shop firstOfShopWords).ending = .exit 0 ∧ ∃ final, final.Passed ∧
      Concludes shop firstOfShop 0 (perform shop firstOfShopWords) final := by
  have hexit : (perform shop firstOfShopWords).ending = .exit 0 := by decide +kernel
  obtain ⟨⟨final?, hleaves⟩, hall⟩ := exit_code_and_files shop firstOfShopWords writes_shop
  obtain ⟨o, hread, -, -, hend⟩ := hall _ _ _ hleaves hexit
  obtain ⟨final, -, hconcludes⟩ := hend (by decide)
  obtain rfl : o = firstOfShop := Reading.options.inj (hread.symm.trans readOptions_firstOfShop)
  exact ⟨writes_shop, hexit, final, hconcludes.zero_iff.mp rfl, hconcludes⟩

end CommandLine

end StepRunner
