import StepRunner.Proofs.Suite.Schema

/-!
# What a suite is read as

* `CaseEntry.ofCase`, `Suite.ofShape`: what a test case and a suite of the right shape hold;
* `CaseEntry.listOf_eq_ok_iff`: test cases are read one by one, as long as their ids differ;
* `RunConfig.ofRaw_eq`: a configuration is made from the fields of a suite and those that win over
  them;
* `Suite.ofJson_eq_ok_iff`: the values that are suites, and what they are read as;
* `Suite.ofJson_eq_error`: the faults of the values that are none.
-/

namespace StepRunner

/-! ## 1. Objects -/

namespace Json

variable {j : Json} {key : String}

/-- The fields of an object; no other value has any. -/
def fieldList : Json → List (String × Json)
  | .obj fields => fields
  | _ => []

/-- An object, or null where there is none. -/
def IsRecord (j : Json) : Prop := j = .null ∨ ∃ fields, j = .obj fields

theorem isRecord_null : Json.null.IsRecord := .inl rfl

theorem isRecord_obj {fields : List (String × Json)} : (Json.obj fields).IsRecord :=
  .inr ⟨fields, rfl⟩

theorem getD_of_get? {v : Json} (h : j.get? key = some v) : j.getD key = v := by
  rw [getD, h]
  rfl

theorem eq_obj_of_get? {v : Json} (h : j.get? key = some v) : ∃ fields, j = .obj fields := by
  cases j with
  | obj fields => exact ⟨fields, rfl⟩
  | null | bool | int | float | str | arr => cases h

end Json

/-! ## 2. Test cases -/

namespace CaseEntry

variable {j : Json} {seen : List String} {items : List Json} {entries : List CaseEntry} {fault : SuiteFault}

/-- What a test case holds. -/
def ofCase (j : Json) : CaseEntry where
  id := (j.getD "id").plain
  title := j.getD "title"
  steps := ((j.getD "steps").parts?).getD []
  expectedResult := (j.get? "expectedResult").getD (.str "")
  description := (j.get? "description").getD (.str "")

/-- A test case is read as what it holds, unless its id has come before. -/
theorem ofJson_eq (h : IsCase j) : ofJson seen j =
    if seen.contains (ofCase j).id then .error (.duplicateCase (ofCase j).id) else .ok (ofCase j) := by
  obtain ⟨id, hid, -⟩ := h.id
  obtain ⟨title, htitle⟩ := h.title
  obtain ⟨texts, hsteps⟩ := h.steps
  have hheld : ofCase j =
      { id := id.plain, title := .str title, steps := texts.map .str
        expectedResult := (j.get? "expectedResult").getD (.str "")
        description := (j.get? "description").getD (.str "") } := by
    rw [ofCase, Json.getD_of_get? hid, Json.getD_of_get? htitle, Json.getD_of_get? hsteps]
    rfl
  rw [hheld]
  obtain ⟨fields, rfl⟩ := Json.eq_obj_of_get? hid
  have hid : Json.find? fields "id" = some id := hid
  have htitle : Json.find? fields "title" = some (.str title) := htitle
  have hsteps : Json.find? fields "steps" = some (.arr (texts.map .str)) := hsteps
  by_cases hseen : seen.contains id.plain
  · simp only [ofJson, hid, hseen, if_true]
    rfl
  · simp only [ofJson, hid, htitle, hsteps, hseen]
    rfl

theorem listOf_cons (h : IsCase j) : listOf seen (j :: items) =
    if (ofCase j).id ∈ seen then .error (.duplicateCase (ofCase j).id)
    else (listOf ((ofCase j).id :: seen) items).map (ofCase j :: ·) := by
  rw [listOf, ofJson_eq h]
  by_cases hseen : (ofCase j).id ∈ seen
  · rw [if_pos (List.contains_iff_mem.mpr hseen), if_pos hseen]
    rfl
  · rw [if_neg (fun hc => hseen (List.contains_iff_mem.mp hc)), if_neg hseen]
    show (listOf ((ofCase j).id :: seen) items >>= fun more => pure (ofCase j :: more)) = _
    cases listOf ((ofCase j).id :: seen) items <;> rfl

/-- Test cases are read as what they hold if their ids differ, from each other and from those before. -/
theorem listOf_eq_ok_iff (h : ∀ item ∈ items, IsCase item) : listOf seen items = .ok entries ↔
    entries = items.map ofCase ∧ (items.map fun j => (ofCase j).id).Nodup ∧
      ∀ j ∈ items, (ofCase j).id ∉ seen := by
  induction items generalizing seen entries with
  | nil =>
      refine Iff.intro (fun e => ?_) fun ⟨e, _⟩ => ?_
      · cases e
        exact ⟨rfl, List.nodup_nil, nofun⟩
      · rw [e]
        rfl
  | cons j rest ih =>
      replace ih {seen : List String} {entries : List CaseEntry} :=
        @ih seen entries fun x hx => h x (List.mem_cons_of_mem _ hx)
      rw [listOf_cons (h j List.mem_cons_self)]
      split
      · next hseen =>
          exact Iff.intro nofun fun ⟨_, _, hfresh⟩ => absurd hseen (hfresh j List.mem_cons_self)
      · next hseen =>
          have hmap : (listOf ((ofCase j).id :: seen) rest).map (ofCase j :: ·) = .ok entries ↔
              ∃ more, listOf ((ofCase j).id :: seen) rest = .ok more ∧ entries = ofCase j :: more := by
            cases listOf ((ofCase j).id :: seen) rest <;> simp [Except.map, eq_comm]
          rw [hmap]
          simp only [ih, List.map_cons, List.nodup_cons, List.mem_cons, List.mem_map, not_or,
            forall_eq_or_imp, not_exists, not_and]
          constructor
          · rintro ⟨more, ⟨rfl, hnodup, hfresh⟩, rfl⟩
            exact ⟨rfl, ⟨fun x hx => (hfresh x hx).1, hnodup⟩, hseen, fun x hx => (hfresh x hx).2⟩
          · rintro ⟨rfl, ⟨hother, hnodup⟩, -, hfresh⟩
            exact ⟨_, ⟨rfl, hnodup, fun x hx => ⟨hother x hx, hfresh x hx⟩⟩, rfl⟩

/-- Reading them fails only at an id that has come before. -/
theorem listOf_eq_error (h : ∀ item ∈ items, IsCase item) (hfault : listOf seen items = .error fault) :
    ∃ id, fault = .duplicateCase id := by
  induction items generalizing seen with
  | nil => cases hfault
  | cons j rest ih =>
      rw [listOf_cons (h j List.mem_cons_self)] at hfault
      split at hfault
      · cases hfault
        exact ⟨_, rfl⟩
      · cases hrest : listOf ((ofCase j).id :: seen) rest with
        | ok entries =>
            rw [hrest] at hfault
            cases hfault
        | error f =>
            rw [hrest] at hfault
            cases hfault
            exact ih (fun x hx => h x (List.mem_cons_of_mem _ hx)) hrest

end CaseEntry

/-! ## 3. Configurations -/

theorem rawFields_eq {j : Json} (h : j.IsRecord) : rawFields j = .ok j.fieldList := by
  obtain rfl | ⟨_ | ⟨field, rest⟩, rfl⟩ := h <;> rfl

/-- A configuration is made from the fields of a suite and those that win over them. -/
theorem RunConfig.ofRaw_eq {raw overrides : Json} (hraw : raw.IsRecord) (hover : overrides.IsRecord) :
    RunConfig.ofRaw raw overrides =
      (RunConfig.ofFields raw.fieldList overrides.fieldList).mapError .config := by
  have hok (c : RunConfig) : (Except.ok c).mapError SuiteFault.config = .ok c := rfl
  have herror (f : ConfigFault) :
      (Except.error f : Except ConfigFault RunConfig).mapError SuiteFault.config = .error (.config f) := rfl
  rw [ofRaw, rawFields_eq hraw]
  cases h : ofFields raw.fieldList overrides.fieldList <;>
    obtain rfl | ⟨_ | ⟨field, rest⟩, rfl⟩ := hover <;>
    simp_all [Json.fieldList, Json.isTruthy, bind, Except.bind, pure, Except.pure, throw, throwThe,
      MonadExceptOf.throw]

/-! ## 4. Suites -/

namespace Suite

variable {raw overrides : Json} {suite : Suite} {fault : SuiteFault}

/-- The test cases of a suite, as they are given. -/
def caseItems (raw : Json) : List Json := ((raw.getD "testCases").parts?).getD []

/-- The ids of the test cases. -/
def caseIds (raw : Json) : List String := (caseItems raw).map fun j => (CaseEntry.ofCase j).id

/-- The project that a suite names. -/
def projectOf (raw : Json) : String :=
  (((raw.get? "project").bind Json.asString?).filter (· != "")).getD unnamedProject

/-- The fields of the configuration of a suite. -/
def configFields (raw : Json) : List (String × Json) := (raw.getD "config").fieldList

/-- What a value of the shape of a suite holds, apart from its configuration. -/
def ofShape (raw : Json) (config : RunConfig) : Suite where
  project := projectOf raw
  config := config
  testCases := ((caseItems raw).map CaseEntry.ofCase).map CaseEntry.toTestCase

theorem isCase_of_mem_caseItems (h : IsSuite raw) : ∀ item ∈ caseItems raw, IsCase item := by
  obtain ⟨items, hget, hitems⟩ := h.testCases
  rw [caseItems, Json.getD_of_get? hget]
  exact hitems

theorem isRecord_config (h : IsSuite raw) : (raw.getD "config").IsRecord := by
  cases hget : raw.get? "config" with
  | none =>
      rw [Json.getD, hget]
      exact Json.isRecord_null
  | some v =>
      rw [Json.getD_of_get? hget]
      exact .inr (h.config v hget).object

theorem ofParts_testCases (h : IsSuite raw) :
    CaseEntry.ofParts (raw.getD "testCases") = CaseEntry.listOf [] (caseItems raw) := by
  obtain ⟨items, hget, -⟩ := h.testCases
  rw [CaseEntry.ofParts, caseItems, Json.getD_of_get? hget]
  rfl

/-- Reading a value of the shape of a suite: its configuration, then its test cases. -/
theorem ofJson_of_isSuite (h : IsSuite raw) (hover : overrides.IsRecord) : ofJson raw overrides =
    ((RunConfig.ofFields (configFields raw) overrides.fieldList).mapError .config).bind fun config =>
      (CaseEntry.listOf [] (caseItems raw)).map fun entries =>
        { project := projectOf raw, config, testCases := entries.map CaseEntry.toTestCase } := by
  rw [ofJson, check_suiteSchema_iff.mpr h, RunConfig.ofRaw_eq (isRecord_config h) hover,
    ofParts_testCases h]
  show ((RunConfig.ofFields (configFields raw) overrides.fieldList).mapError .config >>= fun config =>
    CaseEntry.listOf [] (caseItems raw) >>= fun entries =>
      pure (Suite.mk (projectOf raw) config (entries.map CaseEntry.toTestCase))) = _
  cases RunConfig.ofFields (configFields raw) overrides.fieldList with
  | error f => rfl
  | ok c => cases CaseEntry.listOf [] (caseItems raw) <;> rfl

/-- **The values that are suites, and what they are read as.** They have the shape of a suite, their
configuration is accepted, and no two of their test cases have one id. -/
theorem ofJson_eq_ok_iff (hover : overrides.IsRecord) : ofJson raw overrides = .ok suite ↔
    IsSuite raw ∧ (caseIds raw).Nodup ∧
      ∃ config, RunConfig.ofFields (configFields raw) overrides.fieldList = .ok config ∧
        suite = ofShape raw config := by
  have hcases (h : IsSuite raw) {entries : List CaseEntry} :=
    @CaseEntry.listOf_eq_ok_iff [] _ entries (isCase_of_mem_caseItems h)
  constructor
  · intro e
    have hshape : IsSuite raw := by
      refine check_suiteSchema_iff.mp ?_
      unfold ofJson at e
      split at e
      · cases e
      · next hcheck => exact hcheck
    rw [ofJson_of_isSuite hshape hover] at e
    cases hconfig : RunConfig.ofFields (configFields raw) overrides.fieldList with
    | error f => rw [hconfig] at e; cases e
    | ok config =>
        cases hlist : CaseEntry.listOf [] (caseItems raw) with
        | error f => rw [hconfig, hlist] at e; cases e
        | ok entries =>
            rw [hconfig, hlist] at e
            cases e
            obtain ⟨rfl, hnodup, -⟩ := (hcases hshape).mp hlist
            exact ⟨hshape, hnodup, config, rfl, rfl⟩
  · rintro ⟨hshape, hnodup, config, hconfig, rfl⟩
    rw [ofJson_of_isSuite hshape hover, hconfig, (hcases hshape).mpr ⟨rfl, hnodup, fun _ _ => nofun⟩]
    rfl

/-- **The faults of the values that are no suites**: they break the schema, their configuration is refused, or two
of their test cases have one id. -/
theorem ofJson_eq_error (hover : overrides.IsRecord) (h : ofJson raw overrides = .error fault) :
    (∃ v, fault = .schema v) ∨ (∃ f, fault = .config f) ∨ ∃ id, fault = .duplicateCase id := by
  cases hcheck : suiteSchema.check raw with
  | error v =>
      unfold ofJson at h
      rw [hcheck] at h
      cases h
      exact .inl ⟨v, rfl⟩
  | ok u =>
      have hshape := check_suiteSchema_iff.mp hcheck
      rw [ofJson_of_isSuite hshape hover] at h
      cases hconfig : RunConfig.ofFields (configFields raw) overrides.fieldList with
      | error f =>
          rw [hconfig] at h
          cases h
          exact .inr (.inl ⟨f, rfl⟩)
      | ok config =>
          cases hlist : CaseEntry.listOf [] (caseItems raw) with
          | error f =>
              rw [hconfig, hlist] at h
              cases h
              exact .inr (.inr (CaseEntry.listOf_eq_error (isCase_of_mem_caseItems hshape) hlist))
          | ok entries =>
              rw [hconfig, hlist] at h
              cases h

end Suite

end StepRunner
