import StepRunner.Suite.Basic

/-!
# What a schema accepts

* `Schema.Admits`: the values that a schema describes, part by part;
* `Schema.check_eq_ok_iff`: the check accepts exactly these;
* `IsSuite`: the shape of a suite, with `IsConfig` and `IsCase` for its parts;
* `check_suiteSchema_iff`: the schema of suites describes exactly that shape.
-/

namespace StepRunner

/-! ## 1. Values that a schema describes -/

mutual

/-- The value is as the schema describes it. -/
def Schema.Admits : Schema → Json → Prop
  | .mk kinds nonEmpty positive required properties items, j =>
    (∃ k ∈ kinds, k.admits j = true) ∧
    (nonEmpty = true → j ≠ .str "") ∧
    (positive = true → atMostZero j = false) ∧
    (∀ fields, j = .obj fields → ∀ k ∈ required, (Json.find? fields k).isSome = true) ∧
    FieldsAdmitted properties j ∧
    match items with
    | none => True
    | some s => ∀ parts, j = .arr parts → ∀ item ∈ parts, s.Admits item

/-- The fields of the value are as their schemas describe them, as far as they are there. -/
def FieldsAdmitted : List (String × Schema) → Json → Prop
  | [], _ => True
  | (name, s) :: rest, j =>
    (∀ value, j.get? name = some value → s.Admits value) ∧ FieldsAdmitted rest j

end

namespace Schema

variable {s : Schema} {j : Json} {kinds : List Kind} {required : List String}
  {properties : List (String × Schema)} {vs : List Violation}

theorem leastViolation?_eq_none_iff : leastViolation? vs = none ↔ vs = [] := by
  cases vs with
  | nil => exact Iff.intro (fun _ => rfl) fun _ => rfl
  | cons v rest =>
      refine Iff.intro (fun h => ?_) nofun
      unfold leastViolation? at h
      split at h
      · cases h
      · split at h <;> cases h

/-- The check accepts a value without violations. -/
theorem check_eq_ok_iff_violations : s.check j = .ok () ↔ s.violations j = [] := by
  rw [← leastViolation?_eq_none_iff]
  unfold check
  split
  · next h => exact Iff.intro (fun _ => h) fun _ => rfl
  · next h => exact Iff.intro nofun fun e => by rw [h] at e; cases e

theorem breachIf_eq_nil_iff {condition : Bool} {b : Breach} :
    breachIf condition b = [] ↔ condition = false := by
  cases condition <;> simp [breachIf]

theorem missingFields_eq_nil_iff : missingFields required j = [] ↔
    ∀ fields, j = .obj fields → ∀ k ∈ required, (Json.find? fields k).isSome = true := by
  cases j with
  | obj fields =>
      unfold missingFields
      rw [List.map_eq_nil_iff, List.filter_eq_nil_iff]
      simp [Option.isSome_iff_ne_none]
  | null | bool | int | float | str | arr => exact Iff.intro (fun _ => nofun) fun _ => rfl

theorem indexed_flatMap_eq_nil_iff {f : Json → List Violation} :
    ((indexed j).flatMap fun (i, item) => (f item).map (Violation.under (.item i))) = [] ↔
      ∀ parts, j = .arr parts → ∀ item ∈ parts, f item = [] := by
  cases j with
  | arr parts =>
      unfold indexed
      rw [List.flatMap_eq_nil_iff]
      constructor
      · intro h items e item hitem
        cases e
        obtain ⟨i, hi, rfl⟩ := List.mem_iff_getElem.mp hitem
        have hmem : (parts[i], i) ∈ parts.zipIdx := by simp [List.mem_zipIdx_iff_getElem?, hi]
        exact List.map_eq_nil_iff.mp (h (i, parts[i]) (List.mem_map.mpr ⟨_, hmem, rfl⟩))
      · rintro h ⟨i, item⟩ hx
        obtain ⟨⟨item', i'⟩, hmem, e⟩ := List.mem_map.mp hx
        cases e
        exact List.map_eq_nil_iff.mpr (h parts rfl item (List.fst_mem_of_mem_zipIdx hmem))
  | null | bool | int | float | str | obj => exact Iff.intro (fun _ => nofun) fun _ => rfl

mutual

/-- A value breaks a schema nowhere exactly if it is as the schema describes it. -/
theorem violations_eq_nil_iff : (s : Schema) → (j : Json) → (s.violations j = [] ↔ s.Admits j)
  | .mk kinds nonEmpty positive required properties items, j => by
      have hkinds : (!kinds.any (·.admits j)) = false ↔ ∃ k ∈ kinds, k.admits j = true := by simp
      have hempty : (nonEmpty && j.asString? == some "") = false ↔ (nonEmpty = true → j ≠ .str "") := by
        cases nonEmpty <;> cases j <;> simp [Json.asString?]
      have hpositive : (positive && atMostZero j) = false ↔ (positive = true → atMostZero j = false) := by
        cases positive <;> simp
      have hfields := propertyViolations_eq_nil_iff properties j
      have hown {more : List Violation} : breachIf (!kinds.any (·.admits j)) (.wrongKind j kinds)
            ++ breachIf (nonEmpty && j.asString? == some "") (.empty j)
            ++ breachIf (positive && atMostZero j) (.notPositive j) ++ missingFields required j
            ++ propertyViolations properties j ++ more = [] ↔
          (∃ k ∈ kinds, k.admits j = true) ∧ (nonEmpty = true → j ≠ .str "") ∧
            (positive = true → atMostZero j = false) ∧
            (∀ fields, j = .obj fields → ∀ k ∈ required, (Json.find? fields k).isSome = true) ∧
            FieldsAdmitted properties j ∧ more = [] := by
        simp only [List.append_eq_nil_iff, breachIf_eq_nil_iff, missingFields_eq_nil_iff, hkinds,
          hempty, hpositive, hfields, and_assoc]
      cases items with
      | none =>
          rw [Schema.violations, Schema.Admits, hown]
          simp only [and_true]
      | some s =>
          rw [Schema.violations, Schema.Admits, hown, indexed_flatMap_eq_nil_iff]
          have hitem (item : Json) := violations_eq_nil_iff s item
          simp only [hitem]

theorem propertyViolations_eq_nil_iff : (properties : List (String × Schema)) → (j : Json) →
    (propertyViolations properties j = [] ↔ FieldsAdmitted properties j)
  | [], _ => by
      rw [propertyViolations, FieldsAdmitted]
      simp
  | (name, s) :: rest, j => by
      have hrest := propertyViolations_eq_nil_iff rest j
      have hvalue (value : Json) := violations_eq_nil_iff s value
      rw [propertyViolations, FieldsAdmitted, List.append_eq_nil_iff, hrest]
      refine and_congr_left' ?_
      cases j.get? name with
      | none => exact Iff.intro (fun _ => nofun) fun _ => rfl
      | some value => simp [hvalue]

end

/-- **The check accepts exactly what the schema describes.** -/
theorem check_eq_ok_iff : s.check j = .ok () ↔ s.Admits j :=
  check_eq_ok_iff_violations.trans (violations_eq_nil_iff s j)

/-! ## 2. Schemas of the usual forms -/

theorem admits_ofKinds : (ofKinds kinds).Admits j ↔ ∃ k ∈ kinds, k.admits j = true := by
  rw [ofKinds, Admits, FieldsAdmitted]
  simp

theorem admits_object : (object required properties).Admits j ↔
    ∃ fields, j = .obj fields ∧ (∀ k ∈ required, (Json.find? fields k).isSome = true) ∧
      FieldsAdmitted properties j := by
  rw [object, Admits]
  cases j with
  | obj fields => simp [Kind.admits]
  | null | bool | int | float | str | arr => simp [Kind.admits]

theorem admits_array : (array s).Admits j ↔
    ∃ parts, j = .arr parts ∧ ∀ item ∈ parts, s.Admits item := by
  rw [array, Admits, FieldsAdmitted]
  cases j with
  | arr parts => simp [Kind.admits]
  | null | bool | int | float | str | obj => simp [Kind.admits]

end Schema

namespace Kind

variable {j : Json}

theorem admits_string : string.admits j = true ↔ ∃ s, j = .str s := by
  cases j <;> simp [admits]

theorem admits_boolean : boolean.admits j = true ↔ ∃ b, j = .bool b := by
  cases j <;> simp [admits]

theorem admits_null : null.admits j = true ↔ j = .null := by
  cases j <;> simp [admits]

end Kind

/-! ## 3. The shape of a suite -/

/-- A text, or null. -/
def Json.IsLabel (j : Json) : Prop := ∃ s, j = .ofString? s

theorem Json.isLabel_iff {j : Json} : j.IsLabel ↔ (∃ s, j = .str s) ∨ j = .null := by
  constructor
  · rintro ⟨s, rfl⟩
    cases s with
    | none => exact .inr rfl
    | some s => exact .inl ⟨s, rfl⟩
  · rintro (⟨s, rfl⟩ | rfl)
    · exact ⟨some s, rfl⟩
    · exact ⟨none, rfl⟩

/-- A test case of a suite: its id is a text or a whole number, and the rest are texts. -/
structure IsCase (j : Json) : Prop where
  id : ∃ v, j.get? "id" = some v ∧ (Kind.string.admits v = true ∨ Kind.integer.admits v = true)
  title : ∃ s, j.get? "title" = some (.str s)
  steps : ∃ texts : List String, j.get? "steps" = some (.arr (texts.map .str))
  description : ∀ v, j.get? "description" = some v → ∃ s, v = .str s
  expectedResult : ∀ v, j.get? "expectedResult" = some v → ∃ s, v = .str s

/-- The configuration of a suite. -/
structure IsConfig (j : Json) : Prop where
  object : ∃ fields, j = .obj fields
  parallel : ∀ v, j.get? "parallel" = some v → Kind.integer.admits v = true
  concurrency : ∀ v, j.get? "concurrency" = some v → Kind.integer.admits v = true
  environment : ∀ v, j.get? "environment" = some v → ∃ s, v = .str s ∧ s ≠ ""
  timeout : ∀ v, j.get? "timeout" = some v → Kind.integer.admits v = true ∧ atMostZero v = false
  aiOptimization : ∀ v, j.get? "aiOptimization" = some v → ∃ b, v = .bool b
  baseUrl : ∀ v, j.get? "baseUrl" = some v → v.IsLabel
  suite : ∀ v, j.get? "suite" = some v → v.IsLabel

/-- A suite: test cases, and perhaps a project and a configuration. -/
structure IsSuite (j : Json) : Prop where
  project : ∀ v, j.get? "project" = some v → ∃ s, v = .str s
  config : ∀ v, j.get? "config" = some v → IsConfig v
  testCases : ∃ items, j.get? "testCases" = some (.arr items) ∧ ∀ item ∈ items, IsCase item

variable {j : Json}

theorem forall_str_iff {items : List Json} : (∀ item ∈ items, ∃ s, item = .str s) ↔
    ∃ texts : List String, items = texts.map .str := by
  constructor
  · intro h
    induction items with
    | nil => exact ⟨[], rfl⟩
    | cons item rest ih =>
        obtain ⟨s, rfl⟩ := h item List.mem_cons_self
        obtain ⟨texts, rfl⟩ := ih fun x hx => h x (List.mem_cons_of_mem _ hx)
        exact ⟨s :: texts, rfl⟩
  · rintro ⟨texts, rfl⟩ item hitem
    obtain ⟨s, -, rfl⟩ := List.mem_map.mp hitem
    exact ⟨s, rfl⟩

/-- The schema of test cases describes test cases. -/
theorem admits_caseSchema : caseSchema.Admits j ↔ IsCase j := by
  rw [caseSchema, Schema.admits_object]
  constructor
  · rintro ⟨fields, rfl, hrequired, hfields⟩
    have hget (k : String) : (Json.obj fields).get? k = Json.find? fields k := rfl
    obtain ⟨id, hid⟩ := Option.isSome_iff_exists.mp (hrequired "id" (by simp))
    obtain ⟨title, htitle⟩ := Option.isSome_iff_exists.mp (hrequired "title" (by simp))
    obtain ⟨steps, hsteps⟩ := Option.isSome_iff_exists.mp (hrequired "steps" (by simp))
    simp only [FieldsAdmitted, Schema.admits_ofKinds, Schema.admits_array, List.mem_cons,
      List.not_mem_nil, or_false, exists_eq_left, exists_eq_or_imp, and_true, Kind.admits_string,
      forall_str_iff] at hfields
    obtain ⟨fid, ftitle, fdescription, fsteps, fexpected⟩ := hfields
    obtain ⟨s, rfl⟩ := ftitle title htitle
    obtain ⟨_, rfl, texts, rfl⟩ := fsteps steps hsteps
    exact
      { id := ⟨id, hid, (fid id hid).imp_left Kind.admits_string.mpr⟩
        title := ⟨s, htitle⟩
        steps := ⟨texts, hsteps⟩
        description := fdescription
        expectedResult := fexpected }
  · intro h
    obtain ⟨id, hid, hkind⟩ := h.id
    obtain ⟨s, htitle⟩ := h.title
    obtain ⟨texts, hsteps⟩ := h.steps
    cases j with
    | obj fields =>
        refine ⟨fields, rfl, ?_, ?_⟩
        · have hid : Json.find? fields "id" = some id := hid
          have htitle : Json.find? fields "title" = some (.str s) := htitle
          have hsteps : Json.find? fields "steps" = some (.arr (texts.map .str)) := hsteps
          simp [hid, htitle, hsteps]
        · simp only [FieldsAdmitted, Schema.admits_ofKinds, Schema.admits_array, List.mem_cons,
            List.not_mem_nil, or_false, exists_eq_left, exists_eq_or_imp, and_true,
            Kind.admits_string, forall_str_iff]
          refine ⟨?_, ?_, h.description, ?_, h.expectedResult⟩
          · intro v hv
            rw [hid] at hv
            cases hv
            exact hkind.imp_left Kind.admits_string.mp
          · intro v hv
            rw [htitle] at hv
            cases hv
            exact ⟨s, rfl⟩
          · intro v hv
            rw [hsteps] at hv
            cases hv
            exact ⟨_, rfl, texts, rfl⟩
    | null | bool | int | float | str | arr => cases hid

/-- The schema of configurations describes configurations. -/
theorem admits_configSchema : configSchema.Admits j ↔ IsConfig j := by
  have hpart (nonEmpty positive : Bool) (k : Kind) (v : Json) :
      (Schema.mk [k] nonEmpty positive [] [] none).Admits v ↔ k.admits v = true ∧
        (nonEmpty = true → v ≠ .str "") ∧ (positive = true → atMostZero v = false) := by
    rw [Schema.Admits, FieldsAdmitted]
    simp
  have henvironment (v : Json) : (∃ s, v = .str s) ∧ v ≠ .str "" ↔ ∃ s, v = .str s ∧ s ≠ "" := by
    constructor
    · rintro ⟨⟨s, rfl⟩, hs⟩
      exact ⟨s, rfl, fun e => hs (congrArg _ e)⟩
    · rintro ⟨s, rfl, hs⟩
      exact ⟨⟨s, rfl⟩, fun e => hs (Json.str.inj e)⟩
  rw [configSchema, Schema.admits_object]
  simp only [FieldsAdmitted, Schema.admits_ofKinds, hpart, List.mem_cons, List.not_mem_nil, or_false,
    exists_eq_left, exists_eq_or_imp, and_true, true_implies, false_implies, Bool.false_eq_true,
    true_and, implies_true, Kind.admits_string, Kind.admits_boolean, Kind.admits_null,
    ← Json.isLabel_iff, henvironment, exists_and_right]
  constructor
  · rintro ⟨hobject, hparallel, hconcurrency, henv, htimeout, hai, hbase, hsuite⟩
    exact ⟨hobject, hparallel, hconcurrency, henv, htimeout, hai, hbase, hsuite⟩
  · rintro ⟨hobject, hparallel, hconcurrency, henv, htimeout, hai, hbase, hsuite⟩
    exact ⟨hobject, hparallel, hconcurrency, henv, htimeout, hai, hbase, hsuite⟩

/-- The schema of suites describes suites. -/
theorem admits_suiteSchema : suiteSchema.Admits j ↔ IsSuite j := by
  rw [suiteSchema, Schema.admits_object]
  simp only [FieldsAdmitted, Schema.admits_ofKinds, Schema.admits_array, List.mem_cons,
    List.not_mem_nil, or_false, exists_eq_left, forall_eq, and_true, Kind.admits_string,
    admits_caseSchema, admits_configSchema]
  constructor
  · rintro ⟨fields, rfl, hrequired, hproject, hconfig, hcases⟩
    obtain ⟨cases, hget⟩ := Option.isSome_iff_exists.mp hrequired
    obtain ⟨items, rfl, hitems⟩ := hcases cases hget
    exact ⟨hproject, hconfig, items, hget, hitems⟩
  · rintro ⟨hproject, hconfig, items, hget, hitems⟩
    cases j with
    | obj fields =>
        have hfind : Json.find? fields "testCases" = some (.arr items) := hget
        refine ⟨fields, rfl, by rw [hfind]; rfl, hproject, hconfig, fun v hv => ?_⟩
        rw [hget] at hv
        cases hv
        exact ⟨items, rfl, hitems⟩
    | null | bool | int | float | str | arr => cases hget

/-- **The check of a suite accepts exactly the values that have the shape of one.** -/
theorem check_suiteSchema_iff : suiteSchema.check j = .ok () ↔ IsSuite j :=
  Schema.check_eq_ok_iff.trans admits_suiteSchema

end StepRunner
