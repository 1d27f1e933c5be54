import StepRunner.Proofs.Suite.Reading

/-!
# Suites that are written and read back

`Suite.toJson` writes a suite as a value: the project, the configuration as in a snapshot, and the test
cases. `Suite.read_toJson` says that it is read back as it was.

The configuration is written as it stands in a snapshot: the number of cases at once is called `parallel`
there, and a label that is not given is null. That this means the same to the reader of a suite is
`RunConfig.arguments_toJson`.
-/

namespace StepRunner

/-! ## 1. Configurations -/

namespace RunConfig

variable {c : RunConfig} {a : ConfigArguments}

/-- The fields of a configuration have the types that are meant for them. -/
structure IsTyped (c : RunConfig) : Prop where
  environment : ∃ s, c.environment = .str s
  timeLimit : ∃ n, c.timeLimit = .milliseconds n
  aiOptimization : ∃ b, c.aiOptimization = .bool b
  baseUrl : c.baseUrl.IsLabel
  suite : c.suite.IsLabel

/-- The arguments that a configuration can be made from again. -/
def toArguments (c : RunConfig) : ConfigArguments where
  concurrency := .int c.concurrency
  environment := c.environment
  timeLimit := c.timeLimit.toJson
  aiOptimization := c.aiOptimization
  baseUrl := c.baseUrl
  suite := c.suite

/-- What a configuration is made of. -/
theorem create_eq_ok_iff : create a = .ok c ↔ ∃ concurrency timeLimit,
    readConcurrency a.concurrency = .ok concurrency ∧ readTimeLimit a.timeLimit = .ok timeLimit ∧
      a.environment.isTruthy = true ∧
      c = { concurrency, timeLimit, environment := a.environment
            aiOptimization := a.aiOptimization, baseUrl := a.baseUrl, suite := a.suite } := by
  rw [create]
  cases readConcurrency a.concurrency with
  | error f => exact Iff.intro nofun fun ⟨_, _, h, _⟩ => nomatch h
  | ok n =>
      cases readTimeLimit a.timeLimit with
      | error f => exact Iff.intro nofun fun ⟨_, _, _, h, _⟩ => nomatch h
      | ok t =>
          show (if a.environment.isTruthy then Except.ok _ else Except.error _) = _ ↔ _
          split
          · next henv =>
              constructor
              · intro e
                cases e
                exact ⟨n, t, rfl, rfl, henv, rfl⟩
              · rintro ⟨_, _, hn, ht, -, rfl⟩
                cases hn
                cases ht
                rfl
          · next henv => exact Iff.intro nofun fun ⟨_, _, _, _, h, _⟩ => absurd h henv

theorem readConcurrency_bounds {j : Json} {n : Nat} (h : readConcurrency j = .ok n) :
    1 ≤ n ∧ n ≤ concurrencyLimit := by
  unfold readConcurrency at h
  split at h
  · split at h
    · cases h
    · cases h
      unfold concurrencyLimit
      omega
  · cases h

theorem readConcurrency_eq_ok {j : Json} {n : Nat} (h : readConcurrency j = .ok n) :
    readConcurrency (.int n) = .ok n := by
  have hbounds := readConcurrency_bounds h
  rw [readConcurrency, if_neg (by omega), Int.toNat_natCast, Nat.min_eq_left hbounds.2]

/-- A time limit that was accepted is positive, and accepted again as it is. -/
theorem readTimeLimit_eq_ok {j : Json} {t : TimeLimit} (h : readTimeLimit j = .ok t) :
    0 < t.value ∧ readTimeLimit t.toJson = .ok t := by
  unfold readTimeLimit at h
  split at h
  · next n =>
      split at h
      · cases h
      · next hpos =>
          cases h
          have hback : ((n.toNat : Nat) : Int) = n := Int.toNat_of_nonneg (by omega)
          refine ⟨show 0 < n.toNat by omega, ?_⟩
          rw [TimeLimit.toJson, hback, readTimeLimit, if_neg hpos]
  · cases h
    exact ⟨Nat.one_pos, rfl⟩
  · cases h

/-- A configuration that was accepted is accepted again as it is. -/
theorem create_toArguments (h : create a = .ok c) : create c.toArguments = .ok c := by
  obtain ⟨n, t, hn, ht, henv, rfl⟩ := create_eq_ok_iff.mp h
  exact create_eq_ok_iff.mpr
    ⟨n, t, readConcurrency_eq_ok hn, (readTimeLimit_eq_ok ht).2, henv, rfl⟩

/-- The fields of a snapshot's configuration give the arguments of the configuration back. -/
theorem arguments_toJson (h : c.IsTyped) : arguments c.toJson.fieldList = c.toArguments := by
  obtain ⟨s, henv⟩ := h.environment
  obtain ⟨n, htime⟩ := h.timeLimit
  obtain ⟨b, hai⟩ := h.aiOptimization
  obtain ⟨base, hbase⟩ := h.baseUrl
  obtain ⟨label, hsuite⟩ := h.suite
  rw [toJson, toArguments, henv, htime, hai, hbase, hsuite]
  cases base <;> cases label <;> rfl

/-- A configuration is read back from the fields of a snapshot. -/
theorem ofFields_toJson (hc : create a = .ok c) (h : c.IsTyped) :
    ofFields c.toJson.fieldList [] = .ok c := by
  have hkept : override c.toJson.fieldList [] = c.toJson.fieldList := rfl
  rw [ofFields, hkept, arguments_toJson h, create_toArguments hc]

/-- A configuration as in a snapshot has the shape that is asked for in a suite. -/
theorem isConfig_toJson (hc : create a = .ok c) (h : c.IsTyped) : IsConfig c.toJson := by
  obtain ⟨n, t, -, ht, htruthy, rfl⟩ := create_eq_ok_iff.mp hc
  have hpositive := (readTimeLimit_eq_ok ht).1
  obtain ⟨s, henv⟩ := h.environment
  obtain ⟨ms, htime⟩ := h.timeLimit
  obtain ⟨b, hai⟩ := h.aiOptimization
  dsimp only at henv htime hai htruthy
  have hs : s ≠ "" := by simpa [henv, Json.isTruthy] using htruthy
  subst htime
  have hms : atMostZero (.int ms) = false := by
    have hpositive : 0 < ms := hpositive
    simp only [atMostZero, decide_eq_false_iff_not]
    omega
  exact
    { object := ⟨_, rfl⟩
      parallel := by rintro v ⟨⟩; rfl
      concurrency := by rintro v ⟨⟩
      environment := by rintro v ⟨⟩; exact ⟨s, henv, hs⟩
      timeout := by rintro v ⟨⟩; exact ⟨rfl, hms⟩
      aiOptimization := by rintro v ⟨⟩; exact ⟨b, hai⟩
      baseUrl := by rintro v ⟨⟩; exact h.baseUrl
      suite := by rintro v ⟨⟩; exact h.suite }

end RunConfig

/-! ## 2. Test cases -/

namespace TestCase

variable {c : TestCase}

/-- A test case of a suite. -/
def toJson (c : TestCase) : Json :=
  .obj [ ("id", .str c.id),
    ("title", .str c.title),
    ("description", .str c.description),
    ("steps", .arr (c.steps.map .str)),
    ("expectedResult", .str c.expectedResult) ]

theorem isCase_toJson : IsCase c.toJson where
  id := ⟨_, rfl, .inl rfl⟩
  title := ⟨_, rfl⟩
  steps := ⟨_, rfl⟩
  description := by rintro v ⟨⟩; exact ⟨_, rfl⟩
  expectedResult := by rintro v ⟨⟩; exact ⟨_, rfl⟩

/-- A test case is read back as it was. -/
theorem toTestCase_ofCase_toJson : (CaseEntry.ofCase c.toJson).toTestCase = c := by
  have hsteps : (c.steps.map Json.str).map CaseEntry.textOf = c.steps := by
    rw [List.map_map]
    exact List.map_id _
  show { c with steps := (c.steps.map Json.str).map CaseEntry.textOf } = c
  rw [hsteps]

end TestCase

/-! ## 3. Suites -/

namespace Suite

variable {s : Suite} {a : ConfigArguments}

/-- A suite, written as the value that it is read from. -/
def toJson (s : Suite) : Json :=
  .obj [ ("project", .str s.project),
    ("config", s.config.toJson),
    ("testCases", .arr (s.testCases.map TestCase.toJson)) ]

theorem caseItems_toJson : caseItems s.toJson = s.testCases.map TestCase.toJson := rfl

theorem isSuite_toJson (hconfig : RunConfig.create a = .ok s.config) (htyped : s.config.IsTyped) :
    IsSuite s.toJson where
  project := by rintro v ⟨⟩; exact ⟨_, rfl⟩
  config := by rintro v ⟨⟩; exact RunConfig.isConfig_toJson hconfig htyped
  testCases := by
    refine ⟨_, rfl, fun item hitem => ?_⟩
    obtain ⟨c, -, rfl⟩ := List.mem_map.mp hitem
    exact TestCase.isCase_toJson

theorem projectOf_toJson (h : s.project ≠ "") : projectOf s.toJson = s.project := by
  show (Option.filter (· != "") (some s.project)).getD unnamedProject = s.project
  rw [Option.filter_some, if_pos (bne_iff_ne.mpr h)]
  rfl

theorem caseIds_toJson : caseIds s.toJson = s.testCases.map TestCase.id := by
  rw [caseIds, caseItems_toJson, List.map_map]
  rfl

/-- A suite holds what it was written with. -/
theorem ofShape_toJson (h : s.project ≠ "") : ofShape s.toJson s.config = s := by
  have hcases : ((s.testCases.map TestCase.toJson).map CaseEntry.ofCase).map CaseEntry.toTestCase =
      s.testCases := by
    rw [List.map_map, List.map_map]
    exact (List.map_congr_left fun c _ => TestCase.toTestCase_ofCase_toJson).trans (List.map_id _)
  rw [ofShape, projectOf_toJson h, caseItems_toJson, hcases]

/-- **A suite that is written is read back as it was**: if it has a project, a configuration that was
accepted and is typed, and test cases with different ids, then the value has the shape of a suite, and
is read as the same project, configuration and test cases. -/
theorem read_toJson (hproject : s.project ≠ "") (hconfig : RunConfig.create a = .ok s.config)
    (htyped : s.config.IsTyped) (hids : (s.testCases.map TestCase.id).Nodup) :
    suiteSchema.check s.toJson = .ok () ∧ ofJson s.toJson .null = .ok s := by
  have hshape := isSuite_toJson hconfig htyped
  refine ⟨check_suiteSchema_iff.mpr hshape, ?_⟩
  refine (ofJson_eq_ok_iff Json.isRecord_null).mpr
    ⟨hshape, caseIds_toJson ▸ hids, s.config, ?_, (ofShape_toJson hproject).symm⟩
  exact RunConfig.ofFields_toJson hconfig htyped

/-- A suite of two cases, whose configuration has a label and leaves the address of the pages open. -/
def checkout : Suite where
  project := "shop"
  config :=
    { concurrency := 20, environment := .str "production", timeLimit := .milliseconds 1
      aiOptimization := .bool true, suite := .str "" }
  testCases :=
    [ { id := "1", title := "", steps := ["Open \"/cart\"", ""], description := "Pays" },
      { id := "2", title := "Log out", expectedResult := "\n" } ]

/-- The suite is read back. Its configuration asked for a hundred cases at once and got the most there
is. -/
theorem read_toJson_checkout : suiteSchema.check checkout.toJson = .ok () ∧
    ofJson checkout.toJson .null = .ok checkout :=
  read_toJson (a := { checkout.config.toArguments with concurrency := .int 100 }) (by decide) rfl
    { environment := ⟨_, rfl⟩
      timeLimit := ⟨_, rfl⟩
      aiOptimization := ⟨_, rfl⟩
      baseUrl := ⟨none, rfl⟩
      suite := ⟨some "", rfl⟩ } (by decide)

end Suite

end StepRunner
