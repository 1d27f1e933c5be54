import StepRunner.CommandLine.Command
import StepRunner.Proofs.Config

/-!
# What a command loads

`Loads` says which suite the options get from the files, and with which of its cases; `Unloadable` lists
the reasons why there is none. `loadSuite` follows both (`loadSuite_eq_ok_iff`, `loadSuite_fault_iff`);
all else that can stop it are faults of the files.

* `selectCases_eq`: the cases with a chosen id, in the order of the suite;
* `Loads.nodup`, `Loads.proper`: what the run of the suite can count on.
-/

namespace StepRunner

open Files Text

/-! ## 1. Selections -/

variable {cases : List TestCase} {ids : List String}

theorem insertSorted_ne_nil (s : String) (texts : List String) : insertSorted s texts ≠ [] := by
  cases texts with
  | nil => nofun
  | cons t rest =>
      unfold insertSorted
      split
      · nofun
      · split <;> nofun

theorem isEmpty_sortedOnce (texts : List String) : (sortedOnce texts).isEmpty = texts.isEmpty := by
  cases texts with
  | nil => rfl
  | cons s rest => exact List.isEmpty_eq_false_iff.mpr (insertSorted_ne_nil s _)

theorem isEmpty_unknownIds :
    (unknownIds cases ids).isEmpty = true ↔ ∀ id ∈ ids, id ∈ cases.map (·.id) := by
  rw [unknownIds, isEmpty_sortedOnce, List.isEmpty_iff, List.filter_eq_nil_iff]
  simp only [Bool.not_eq_true', Bool.not_eq_false, List.any_eq_true, beq_iff_eq, List.mem_map]

/-- **A selection** has every case where no id is chosen, else the cases with a chosen id; an id that no
case has is refused. -/
theorem selectCases_eq : selectCases cases ids =
    if ∀ id ∈ ids, id ∈ cases.map (·.id) then .ok (cases.filter fun c => ids = [] ∨ c.id ∈ ids)
    else .error (.unknownCases (unknownIds cases ids)) := by
  unfold selectCases
  by_cases hnone : ids = []
  · simp [hnone]
  · simp only [isEmpty_unknownIds, chosenCases, List.contains_eq_mem, hnone, false_or]
    rw [if_neg (by simpa using hnone)]

/-! ## 2. Configurations -/

namespace RunConfig

variable {fields overrides : List (String × Json)} {c : RunConfig}

/-- What holds of the fields and of all that wins over them holds of the fields that come of it. -/
theorem find?_override {P : String → Json → Prop}
    (hfields : ∀ k v, Json.find? fields k = some v → P k v) (hover : ∀ f ∈ overrides, P f.1 f.2) :
    ∀ k v, Json.find? (override fields overrides) k = some v → P k v := by
  induction overrides generalizing fields with
  | nil => exact hfields
  | cons f rest ih =>
      refine ih (fun k v hv => ?_) fun g hg => hover g (List.mem_cons_of_mem _ hg)
      have hf := hover f List.mem_cons_self
      have hv : Json.find? (override fields [f]) k = some v := hv
      rw [find?_override_singleton] at hv
      split at hv
      · next hk =>
          cases hv
          exact hk.1 ▸ hf
      · exact hfields k v hv

/-- Labels that are proper make a proper configuration. -/
theorem proper_of_ofFields (h : ofFields fields overrides = .ok c)
    (hfields : ∀ k ∈ ["environment", "baseUrl", "suite"], ∀ v, Json.find? fields k = some v → v.Proper)
    (hover : ∀ f ∈ overrides, f.2.Proper) : c.Proper := by
  have hfind := find?_override (P := fun k v => k ∈ ["environment", "baseUrl", "suite"] → v.Proper)
    (fun k v hv hk => hfields k hk v hv) fun f hf _ => hover f hf
  have hgiven (k : String) (hk : k ∈ ["environment", "baseUrl", "suite"]) (unset : Json)
      (hu : unset.Proper) : ((given? (override fields overrides) [k]).getD unset).Proper := by
    cases hj : given? (override fields overrides) [k] with
    | none => exact hu
    | some j =>
        unfold given? at hj
        rw [List.findSome?_singleton, Option.bind_eq_some_iff] at hj
        obtain ⟨v, hv, hj⟩ := hj
        rw [Json.nonNull?_eq_some_iff] at hj
        exact hj.1 ▸ hfind k v hv hk
  obtain ⟨concurrency, timeLimit, -, -, -, rfl⟩ := create_eq_ok_iff.mp h
  refine ⟨hgiven _ (by decide) _ trivial, ?_, hgiven _ (by decide) _ trivial,
    hgiven _ (by decide) _ trivial⟩
  show Json.Proper (((given? (override fields overrides) ["aiOptimization"]).map
    fun j => Json.bool j.isTruthy).getD (.bool false))
  cases given? (override fields overrides) ["aiOptimization"] <;> trivial

end RunConfig

theorem Json.IsLabel.proper {j : Json} (h : j.IsLabel) : j.Proper := by
  obtain ⟨s, rfl⟩ := h
  exact Json.proper_ofString? s

/-- The labels of a suite's configuration are proper. -/
theorem Suite.proper_configFields {raw : Json} (h : IsSuite raw) (k : String)
    (hk : k ∈ ["environment", "baseUrl", "suite"]) (v : Json)
    (hv : Json.find? (Suite.configFields raw) k = some v) : v.Proper := by
  unfold Suite.configFields at hv
  cases hconfig : raw.get? "config" with
  | none =>
      rw [Json.getD, hconfig] at hv
      cases hv
  | some j =>
      have hshape := h.config j hconfig
      obtain ⟨fields, rfl⟩ := hshape.object
      rw [Json.getD_of_get? hconfig] at hv
      simp only [List.mem_cons, List.not_mem_nil, or_false] at hk
      rcases hk with rfl | rfl | rfl
      · obtain ⟨s, rfl, -⟩ := hshape.environment v hv
        trivial
      · exact (hshape.baseUrl v hv).proper
      · exact (hshape.suite v hv).proper

namespace CommandLine

/-! ## 3. Files of suites -/

variable {files : Tree} {o : Options} {suite : Suite} {raw : Json} {c : Content} {path : Path}

/-- The value that a file holds; none where it holds no text or no value. -/
def valueIn? (c : Content) : Option Json :=
  match Utf8.decode c.toBytes with
  | .error _ => none
  | .ok cs => (Json.parse (String.ofList (Utf8.unifyLineEnds cs))).toOption

/-- The file that the options name holds a value. -/
def Offers (files : Tree) (o : Options) (raw : Json) : Prop :=
  ∃ c, Files.read files (Path.ofString o.suite) = .ok c ∧ valueIn? c = some raw

/-- A case that the options choose: any where they name none. -/
def Options.Chooses (o : Options) (c : TestCase) : Prop := o.cases = [] ∨ c.id ∈ o.cases

instance (o : Options) : DecidablePred o.Chooses := fun _ => inferInstanceAs (Decidable (_ ∨ _))

/-- The suite of a value, with the cases that the options choose. -/
def Options.chosenFrom (o : Options) (raw : Json) (config : RunConfig) : Suite :=
  { Suite.ofShape raw config with testCases := (Suite.ofShape raw config).testCases.filter o.Chooses }

/-- What the options get from the files. -/
structure Loads (files : Tree) (o : Options) (suite : Suite) (raw : Json) (config : RunConfig) :
    Prop where
  offers : Offers files o raw
  shape : IsSuite raw
  distinct : (Suite.caseIds raw).Nodup
  accepted : RunConfig.ofFields (Suite.configFields raw) o.overrides.fieldList = .ok config
  known : ∀ id ∈ o.cases, id ∈ Suite.caseIds raw
  suite : suite = o.chosenFrom raw config

/-- Why the options get no suite from the files, or not the cases that they name. -/
inductive Unloadable (files : Tree) (o : Options) : Prop where
  /-- There is no such file. -/
  | missing (h : exists? files (Path.ofString o.suite) = .ok false)
  /-- The file holds no JSON. -/
  | unreadable (c : Content) (h : Files.read files (Path.ofString o.suite) = .ok c)
      (hc : valueIn? c = none)
  /-- The value violates the schema. -/
  | violation (raw : Json) (h : Offers files o raw) (hs : ¬ IsSuite raw)
  /-- The configuration is rejected. -/
  | rejected (raw : Json) (fault : ConfigFault) (h : Offers files o raw)
      (hc : RunConfig.ofFields (Suite.configFields raw) o.overrides.fieldList = .error fault)
  /-- Two test cases have one id. -/
  | shared (raw : Json) (h : Offers files o raw) (hd : ¬ (Suite.caseIds raw).Nodup)
  /-- No test case has an id that the options name. -/
  | unknown (raw : Json) (id : String) (h : Offers files o raw) (hid : id ∈ o.cases)
      (hn : id ∉ Suite.caseIds raw)

theorem exists?_of_read (h : Files.read files path = .ok c) : exists? files path = .ok true := by
  unfold Files.read at h
  split at h
  · cases h
  · cases h
  · next p c' hfind =>
      unfold exists?
      rw [hfind]
  · cases h

theorem readSuite_eq_ok_iff : readSuite files path = .ok c ↔ Files.read files path = .ok c := by
  constructor
  · intro h
    unfold readSuite at h
    split at h
    · cases h
    · cases h
    · cases hread : Files.read files path with
      | error f => rw [hread] at h; cases h
      | ok c' => rw [hread] at h; cases h; rfl
  · intro h
    unfold readSuite
    rw [exists?_of_read h, h]
    rfl

theorem readSuite_eq_fault_iff {f : SuiteFault} : readSuite files path = .error (.fault f) ↔
    exists? files path = .ok false ∧ f = .missingFile path.text := by
  unfold readSuite
  split
  · next h => simp [h]
  · next h => simp [h, eq_comm]
  · next h =>
      rw [h]
      cases Files.read files path with
      | error g => exact iff_of_false nofun (by rintro ⟨⟨⟩, -⟩)
      | ok c => exact iff_of_false nofun (by rintro ⟨⟨⟩, -⟩)

/-- The bytes of a file give the suite of its value, if it has one. -/
theorem ofBytes_eq (c : Content) (overrides : Json) : match valueIn? c with
    | none => ∃ f, Suite.ofBytes c.toBytes overrides = .error f
    | some raw => Suite.ofBytes c.toBytes overrides = Suite.ofJson raw overrides := by
  unfold valueIn? Suite.ofBytes Suite.ofText
  cases Utf8.decode c.toBytes with
  | error r => exact ⟨_, rfl⟩
  | ok cs =>
      dsimp only
      cases Json.parse (String.ofList (Utf8.unifyLineEnds cs)) with
      | error e => exact ⟨_, rfl⟩
      | ok raw => rfl

theorem isRecord_overrides (o : Options) : o.overrides.IsRecord := Json.isRecord_obj

/-! ## 4. Loading -/

/-- What is loaded of a file that can be read. -/
theorem loadSuite_of_read (h : Files.read files (Path.ofString o.suite) = .ok c) : loadSuite files o =
    ((Suite.ofBytes c.toBytes o.overrides).bind fun suite =>
      (selectCases suite.testCases o.cases).map fun testCases => { suite with testCases }).mapError
        LoadStop.fault := by
  unfold loadSuite
  rw [readSuite_eq_ok_iff.mpr h]
  show ((Suite.ofBytes c.toBytes o.overrides).mapError LoadStop.fault >>= fun suite =>
    (selectCases suite.testCases o.cases).mapError LoadStop.fault >>= fun testCases =>
      pure { suite with testCases }) = _
  cases Suite.ofBytes c.toBytes o.overrides with
  | error f => rfl
  | ok suite =>
      change (selectCases suite.testCases o.cases).mapError LoadStop.fault >>= _ =
        ((selectCases suite.testCases o.cases).map _).mapError LoadStop.fault
      cases selectCases suite.testCases o.cases <;> rfl

theorem offers_unique {raw' : Json} (h : Offers files o raw) (h' : Offers files o raw') : raw' = raw := by
  obtain ⟨c, hread, hraw⟩ := h
  obtain ⟨c', hread', hraw'⟩ := h'
  rw [hread] at hread'
  cases hread'
  exact Option.some.inj (hraw'.symm.trans hraw)

theorem ids_ofShape (raw : Json) (config : RunConfig) :
    (Suite.ofShape raw config).testCases.map (·.id) = Suite.caseIds raw := by
  simp only [Suite.ofShape, Suite.caseIds, List.map_map]
  rfl

/-- **What is loaded**, and when. -/
theorem loadSuite_eq_ok_iff :
    loadSuite files o = .ok suite ↔ ∃ raw config, Loads files o suite raw config := by
  constructor
  · intro h
    obtain ⟨c, hread⟩ : ∃ c, Files.read files (Path.ofString o.suite) = .ok c := by
      unfold loadSuite at h
      cases hc : readSuite files (Path.ofString o.suite) with
      | error f => rw [hc] at h; cases h
      | ok c => exact ⟨c, readSuite_eq_ok_iff.mp hc⟩
    rw [loadSuite_of_read hread] at h
    have hvalue := ofBytes_eq c o.overrides
    cases hraw : valueIn? c with
    | none =>
        rw [hraw] at hvalue
        obtain ⟨f, hf⟩ := hvalue
        rw [hf] at h
        cases h
    | some raw =>
        rw [hraw] at hvalue
        rw [hvalue] at h
        cases hof : Suite.ofJson raw o.overrides with
        | error f => rw [hof] at h; cases h
        | ok whole =>
            obtain ⟨hshape, hdistinct, config, hconfig, rfl⟩ :=
              (Suite.ofJson_eq_ok_iff (isRecord_overrides o)).mp hof
            rw [hof] at h
            dsimp only [Except.bind] at h
            rw [selectCases_eq, ids_ofShape] at h
            split at h
            · next hknown =>
                cases h
                exact ⟨raw, config, ⟨c, hread, hraw⟩, hshape, hdistinct, hconfig, hknown, rfl⟩
            · cases h
  · rintro ⟨raw, config, ⟨c, hread, hraw⟩, hshape, hdistinct, hconfig, hknown, rfl⟩
    have hvalue := ofBytes_eq c o.overrides
    rw [hraw] at hvalue
    rw [loadSuite_of_read hread, hvalue, (Suite.ofJson_eq_ok_iff (isRecord_overrides o)).mpr
      ⟨hshape, hdistinct, config, hconfig, rfl⟩]
    dsimp only [Except.bind]
    rw [selectCases_eq, ids_ofShape, if_pos hknown]
    rfl

/-- A file that can be read gives a suite or a fault, so what rules out a suite gives a fault. -/
theorem exists_fault_of_read (h : Files.read files (Path.ofString o.suite) = .ok c)
    (hno : ∀ suite raw config, ¬ Loads files o suite raw config) :
    ∃ f, loadSuite files o = .error (.fault f) := by
  have heq := loadSuite_of_read (o := o) h
  cases hx : (Suite.ofBytes c.toBytes o.overrides).bind fun suite =>
      (selectCases suite.testCases o.cases).map fun testCases => { suite with testCases } with
  | error f => exact ⟨f, by rw [heq, hx]; rfl⟩
  | ok suite =>
      rw [hx] at heq
      obtain ⟨raw, config, hloads⟩ := loadSuite_eq_ok_iff.mp heq
      exact absurd hloads (hno suite raw config)

theorem exists_fault_of_offers (h : Offers files o raw)
    (hno : ∀ suite config, ¬ Loads files o suite raw config) :
    ∃ f, loadSuite files o = .error (.fault f) := by
  have ⟨c, hc, _⟩ := h
  exact exists_fault_of_read hc fun suite raw' config hl =>
    hno suite config (offers_unique h hl.offers ▸ hl)

/-- What stands in a file that can be read is a suite to load, or something rules it out. -/
theorem loads_or_unloadable (hread : Files.read files (Path.ofString o.suite) = .ok c) :
    (∃ suite raw config, Loads files o suite raw config) ∨ Unloadable files o := by
  cases hraw : valueIn? c with
  | none => exact .inr (.unreadable c hread hraw)
  | some raw =>
      have hoff : Offers files o raw := ⟨c, hread, hraw⟩
      by_cases hshape : IsSuite raw
      swap
      · exact .inr (.violation raw hoff hshape)
      by_cases hdistinct : (Suite.caseIds raw).Nodup
      swap
      · exact .inr (.shared raw hoff hdistinct)
      cases hconfig : RunConfig.ofFields (Suite.configFields raw) o.overrides.fieldList with
      | error fault => exact .inr (.rejected raw fault hoff hconfig)
      | ok config =>
          by_cases hknown : ∀ id ∈ o.cases, id ∈ Suite.caseIds raw
          · exact .inl ⟨_, raw, config, hoff, hshape, hdistinct, hconfig, hknown, rfl⟩
          · push Not at hknown
            obtain ⟨id, hid, hn⟩ := hknown
            exact .inr (.unknown raw id hoff hid hn)

/-- **Why nothing is loaded**, unless the files cannot be read. -/
theorem loadSuite_fault_iff :
    (∃ f, loadSuite files o = .error (.fault f)) ↔ Unloadable files o := by
  constructor
  · rintro ⟨f, h⟩
    cases hc : readSuite files (Path.ofString o.suite) with
    | error stop =>
        unfold loadSuite at h
        rw [hc] at h
        cases h
        exact .missing (readSuite_eq_fault_iff.mp hc).1
    | ok c =>
        refine (loads_or_unloadable (readSuite_eq_ok_iff.mp hc)).resolve_left ?_
        rintro ⟨suite, hloads⟩
        rw [loadSuite_eq_ok_iff.mpr hloads] at h
        cases h
  · rintro (h | ⟨c, h, hc⟩ | ⟨raw, h, hs⟩ | ⟨raw, fault, h, hc⟩ | ⟨raw, h, hd⟩ | ⟨raw, id, h, hid, hn⟩)
    · exact ⟨_, by rw [loadSuite, readSuite_eq_fault_iff.mpr ⟨h, rfl⟩]; rfl⟩
    · refine exists_fault_of_read h fun suite raw config hl => ?_
      obtain ⟨c', hc', hraw⟩ := hl.offers
      rw [h] at hc'
      cases hc'
      rw [hc] at hraw
      cases hraw
    · exact exists_fault_of_offers h fun suite config hl => hs hl.shape
    · refine exists_fault_of_offers h fun suite config hl => ?_
      rw [hl.accepted] at hc
      cases hc
    · exact exists_fault_of_offers h fun suite config hl => hd hl.distinct
    · exact exists_fault_of_offers h fun suite config hl => hn (hl.known id hid)

/-! ## 5. What a run can count on -/

namespace Loads

variable {config : RunConfig}

/-- No two of the cases that are selected have one id. -/
theorem nodup (h : Loads files o suite raw config) : (suite.testCases.map (·.id)).Nodup := by
  have hids := ids_ofShape raw config ▸ h.distinct
  rw [h.suite]
  exact hids.sublist (List.filter_sublist.map _)

/-- The configuration is written as text that is read back. -/
theorem proper (h : Loads files o suite raw config) : suite.config.Proper := by
  rw [h.suite]
  refine RunConfig.proper_of_ofFields h.accepted (Suite.proper_configFields h.shape) fun f hf => ?_
  simp only [Options.overrides, Json.fieldList, List.mem_cons, List.not_mem_nil, or_false] at hf
  rcases hf with rfl | rfl | rfl
  · cases o.concurrency <;> trivial
  · exact Json.proper_ofString? _
  · cases o.timeout <;> trivial

end Loads

end CommandLine

end StepRunner
