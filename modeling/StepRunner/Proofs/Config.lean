import StepRunner.Proofs.Store
import StepRunner.Proofs.Suite.RoundTrip

/-!
# Overrides of a configuration

A configuration is made field by field: `RunConfig.ofRaw_eq_ok_iff` says so, where `RunConfig.gives` is what a
value and overrides give for one field, whatever comes of the others.

`RunConfig.overrides_win` says where each field comes from: from the overrides if they hold a value under one
of its keys, else from the value that they win over. There is one exception. The number of cases at once has
two keys, of which `concurrency` counts before `parallel`; so overrides with `parallel` alone are overlooked where
the value has `concurrency` (`Overlooked`).
-/

namespace StepRunner

/-! ## 1. Fields -/

/-- The fields of a configuration. -/
inductive ConfigField where
  | concurrency
  | environment
  | timeLimit
  | aiOptimization
  | baseUrl
  | suite
  deriving DecidableEq, Repr

namespace ConfigField

/-- The keys of a field, of which the first that is there counts. -/
def keys : ConfigField → List String
  | concurrency => ["concurrency", "parallel"]
  | environment => ["environment"]
  | timeLimit => ["timeout"]
  | aiOptimization => ["aiOptimization"]
  | baseUrl => ["baseUrl"]
  | suite => ["suite"]

/-- What a field comes to where so much is given for it. -/
def read (given : Option Json) (f : ConfigField) : Except ConfigFault Json :=
  let unset : ConfigArguments := {}
  match f with
  | concurrency => (RunConfig.readConcurrency (given.getD unset.concurrency)).map fun n : Nat => .int n
  | environment =>
    let label := given.getD unset.environment
    if label.isTruthy then .ok label else .error .emptyEnvironment
  | timeLimit => (RunConfig.readTimeLimit (given.getD unset.timeLimit)).map TimeLimit.toJson
  | aiOptimization => .ok ((given.map fun j => .bool j.isTruthy).getD unset.aiOptimization)
  | baseUrl | suite => .ok (given.getD .null)

end ConfigField

namespace RunConfig

/-- The value of a field, as in a snapshot. -/
def value (c : RunConfig) : ConfigField → Json
  | .concurrency => .int c.concurrency
  | .environment => c.environment
  | .timeLimit => c.timeLimit.toJson
  | .aiOptimization => c.aiOptimization
  | .baseUrl => c.baseUrl
  | .suite => c.suite

/-- What a value and overrides give for a field. -/
def gives (raw overrides : Json) (f : ConfigField) : Except SuiteFault Json :=
  (rawFields raw).bind fun fields =>
    (f.read (given? (override fields overrides.fieldList) f.keys)).mapError .config

variable {raw : Json} {fields overrides : List (String × Json)} {c : RunConfig} {f : ConfigField}
  {key : String}

theorem toJson_inj {t t' : TimeLimit} (h : t.toJson = t'.toJson) : t = t' := by
  cases t <;> cases t' <;> simp_all [TimeLimit.toJson]

/-- **A configuration is made field by field.** -/
theorem ofFields_eq_ok_iff : ofFields fields overrides = .ok c ↔
    ∀ f : ConfigField, f.read (given? (override fields overrides) f.keys) = .ok (c.value f) := by
  unfold ofFields
  generalize override fields overrides = all
  rw [create_eq_ok_iff]
  constructor
  · rintro ⟨n, t, hn, ht, henv, rfl⟩ f
    cases f with
    | concurrency => exact congrArg (Except.map fun n : Nat => Json.int n) hn
    | environment => exact if_pos henv
    | timeLimit => exact congrArg (Except.map TimeLimit.toJson) ht
    | aiOptimization | baseUrl | suite => rfl
  · intro h
    have hconcurrency : (readConcurrency (arguments all).concurrency).map (fun n : Nat => Json.int n) =
        .ok (.int c.concurrency) := h .concurrency
    have hlimit : (readTimeLimit (arguments all).timeLimit).map TimeLimit.toJson = .ok c.timeLimit.toJson :=
      h .timeLimit
    have henvironment : (if (arguments all).environment.isTruthy then .ok (arguments all).environment
        else .error .emptyEnvironment : Except ConfigFault Json) = .ok c.environment := h .environment
    have hai : (arguments all).aiOptimization = c.aiOptimization := Except.ok.inj (h .aiOptimization)
    have hbase : (arguments all).baseUrl = c.baseUrl := Except.ok.inj (h .baseUrl)
    have hsuite : (arguments all).suite = c.suite := Except.ok.inj (h .suite)
    cases hn : readConcurrency (arguments all).concurrency with
    | error f => rw [hn] at hconcurrency; cases hconcurrency
    | ok n =>
        cases ht : readTimeLimit (arguments all).timeLimit with
        | error f => rw [ht] at hlimit; cases hlimit
        | ok t =>
            rw [hn] at hconcurrency
            rw [ht] at hlimit
            have hn' : n = c.concurrency := by
              simpa [Except.map] using hconcurrency
            have ht' := toJson_inj (Except.ok.inj hlimit)
            split at henvironment
            · next htruthy =>
                refine ⟨n, t, rfl, rfl, htruthy, ?_⟩
                rw [hn', ht', hai, hbase, hsuite, Except.ok.inj henvironment]
            · cases henvironment

/-- A value is read with overrides by its fields. -/
theorem ofRaw_obj : ofRaw raw (.obj overrides) =
    (rawFields raw).bind fun fields => (ofFields fields overrides).mapError .config := by
  cases h : rawFields raw with
  | error f =>
      rw [ofRaw, h]
      rfl
  | ok fields =>
      have hsame : ofRaw raw (.obj overrides) = ofRaw (.obj fields) (.obj overrides) := by
        rw [ofRaw, ofRaw, h, rawFields_eq Json.isRecord_obj]
        rfl
      rw [hsame, ofRaw_eq Json.isRecord_obj Json.isRecord_obj]
      rfl

theorem mapError_eq_ok_iff {α : Type} {x : Except ConfigFault α} {y : α} :
    x.mapError SuiteFault.config = .ok y ↔ x = .ok y := by
  cases x <;> simp [Except.mapError]

/-- **A configuration is what is given for each of its fields.** -/
theorem ofRaw_eq_ok_iff : ofRaw raw (.obj overrides) = .ok c ↔
    ∀ f, gives raw (.obj overrides) f = .ok (c.value f) := by
  rw [ofRaw_obj]
  unfold gives
  cases rawFields raw with
  | error fault => exact iff_of_false nofun fun h => nomatch h .concurrency
  | ok fields =>
      show (ofFields fields overrides).mapError SuiteFault.config = _ ↔ ∀ f : ConfigField,
        (f.read (given? (override fields overrides) f.keys)).mapError SuiteFault.config = _
      simp only [mapError_eq_ok_iff]
      exact ofFields_eq_ok_iff

/-! ## 2. Keys -/

/-- There is a value other than null under the key. -/
def Holds (overrides : List (String × Json)) (key : String) : Prop :=
  ∃ e ∈ overrides, e.1 = key ∧ e.2.isNull = false

instance : Decidable (Holds overrides key) := inferInstanceAs (Decidable (∃ e ∈ overrides, _))

/-- What one more override leaves of the value of a key. -/
theorem find?_override_singleton (e : String × Json) : Json.find? (override fields [e]) key =
    if e.1 = key ∧ e.2.isNull = false then some e.2 else Json.find? fields key := by
  obtain ⟨k, v⟩ := e
  show Json.find? (if v.isNull then fields else Json.set fields k v) key = _
  cases hv : v.isNull with
  | true => simp
  | false =>
      unfold Json.find?
      rw [if_neg (by decide), Json.lookup_set]
      simp [eq_comm]

/-- **A key has the value that overrides give it**, and where they give none its own. -/
theorem find?_override_eq : Json.find? (override fields overrides) key =
    (Json.find? (override [] overrides) key).or (Json.find? fields key) := by
  induction overrides generalizing fields with
  | nil => rfl
  | cons e rest ih =>
      have hstep (fields : List (String × Json)) : Json.find? (override fields (e :: rest)) key =
          (Json.find? (override [] rest) key).or (Json.find? (override fields [e]) key) := ih
      rw [hstep fields, hstep [], Option.or_assoc, find?_override_singleton, find?_override_singleton]
      split <;> rfl

/-- Overrides give a key a value exactly if they hold one. -/
theorem holds_iff : Holds overrides key ↔ (Json.find? (override [] overrides) key).isSome = true := by
  induction overrides with
  | nil => exact iff_of_false (by rintro ⟨e, he, -⟩; cases he) nofun
  | cons e rest ih =>
      have hstep : Json.find? (override [] (e :: rest)) key =
          (Json.find? (override [] rest) key).or (Json.find? (override [] [e]) key) :=
        @find?_override_eq (override [] [e]) rest key
      have hholds : Holds (e :: rest) key ↔ Holds rest key ∨ (e.1 = key ∧ e.2.isNull = false) := by
        unfold Holds
        rw [List.exists_mem_cons_iff, or_comm]
      rw [hholds, ih, hstep, find?_override_singleton, Option.isSome_or, Bool.or_eq_true]
      refine or_congr_right ?_
      split
      · next h => exact iff_of_true h rfl
      · next h => exact iff_of_false h nofun

theorem given?_pair (fields : List (String × Json)) (first second : String) : given? fields [first, second] =
    ((Json.find? fields first).or (Json.find? fields second)).bind Json.nonNull? := by
  unfold given?
  rw [List.findSome?_cons, List.findSome?_singleton]
  cases Json.find? fields first <;> rfl

theorem given?_single (fields : List (String × Json)) (key : String) :
    given? fields [key] = given? fields [key, key] := by
  rw [given?_pair, Option.or_self, given?, List.findSome?_singleton]

/-- **Which of two keys counts** where there are overrides: the first one if they hold it, else that of the value
    that they win over if it is there, and only then the second one. -/
theorem given?_override (first second : String) : given? (override fields overrides) [first, second] =
    if Holds overrides first ∨ Holds overrides second ∧ Json.find? fields first = none then
      given? (override [] overrides) [first, second]
    else given? fields [first, second] := by
  simp only [given?_pair, holds_iff]
  rw [find?_override_eq, @find?_override_eq fields overrides second]
  cases Json.find? (override [] overrides) first with
  | some v => rfl
  | none =>
      cases Json.find? fields first with
      | some v => exact (if_neg (by simp)).symm
      | none => cases Json.find? (override [] overrides) second <;> rfl

theorem given?_override_single : given? (override fields overrides) [key] =
    if Holds overrides key then given? (override [] overrides) [key] else given? fields [key] := by
  rw [given?_single, given?_override, ← given?_single, ← given?_single]
  exact if_congr (or_iff_left_of_imp And.left) rfl rfl

/-! ## 3. Overrides win -/

/-- The overrides hold a value under one of the keys of the field. -/
def Overrides (overrides : List (String × Json)) (f : ConfigField) : Prop := ∃ k ∈ f.keys, Holds overrides k

instance : Decidable (Overrides overrides f) := inferInstanceAs (Decidable (∃ k ∈ f.keys, _))

/-- The overrides speak of the number of cases at once under its second key, and are overlooked: the value that
    they should win over has the first one. -/
structure Overlooked (raw : Json) (overrides : List (String × Json)) (f : ConfigField) : Prop where
  field : f = .concurrency
  second : Holds overrides "parallel"
  first : ¬ Holds overrides "concurrency"
  kept : ∃ fields, rawFields raw = .ok fields ∧ (Json.find? fields "concurrency").isSome = true

theorem overlooked_iff (h : rawFields raw = .ok fields) : Overlooked raw overrides f ↔ f = .concurrency ∧
    Holds overrides "parallel" ∧ ¬ Holds overrides "concurrency" ∧ Json.find? fields "concurrency" ≠ none := by
  constructor
  · rintro ⟨hf, hsecond, hfirst, _, hfields, hkept⟩
    cases Except.ok.inj (hfields.symm.trans h)
    exact ⟨hf, hsecond, hfirst, Option.isSome_iff_ne_none.mp hkept⟩
  · rintro ⟨hf, hsecond, hfirst, hkept⟩
    exact ⟨hf, hsecond, hfirst, _, h, Option.isSome_iff_ne_none.mpr hkept⟩

open scoped Classical in
/-- **What is given for a field**, by the overrides or by the fields that they win over. -/
theorem given?_keys (h : rawFields raw = .ok fields) : given? (override fields overrides) f.keys =
    if Overrides overrides f ∧ ¬ Overlooked raw overrides f then given? (override [] overrides) f.keys
    else given? fields f.keys := by
  have hsingle {f : ConfigField} (key : String) (hkeys : f.keys = [key]) (hfield : f ≠ .concurrency) :
      given? (override fields overrides) f.keys =
        if Overrides overrides f ∧ ¬ Overlooked raw overrides f then given? (override [] overrides) f.keys
        else given? fields f.keys := by
    have hmeant : Overrides overrides f ↔ Holds overrides key := by simp [Overrides, hkeys]
    rw [hkeys, given?_override_single]
    refine if_congr ?_ rfl rfl
    rw [hmeant]
    exact (and_iff_left fun ho => hfield ho.field).symm
  cases f with
  | environment | timeLimit | aiOptimization | baseUrl | suite => exact hsingle _ rfl nofun
  | concurrency =>
      have hmeant : Overrides overrides .concurrency ↔
          Holds overrides "concurrency" ∨ Holds overrides "parallel" := by
        simp [Overrides, ConfigField.keys]
      show given? _ ["concurrency", "parallel"] = if _ then given? _ ["concurrency", "parallel"]
        else given? _ ["concurrency", "parallel"]
      rw [given?_override]
      refine if_congr ?_ rfl rfl
      rw [hmeant, overlooked_iff h]
      tauto

theorem gives_of_rawFields (h : rawFields raw = .ok fields) : gives raw (.obj overrides) f =
    (f.read (given? (override fields overrides) f.keys)).mapError .config := by
  unfold gives
  rw [h]
  rfl

open scoped Classical in
/-- **Where a field comes from**: from the overrides where they hold it and are not overlooked, else from the
    value. -/
theorem gives_eq (h : rawFields raw = .ok fields) : gives raw (.obj overrides) f =
    if Overrides overrides f ∧ ¬ Overlooked raw overrides f then gives (.obj []) (.obj overrides) f
    else gives raw .null f := by
  have hempty : gives (.obj []) (.obj overrides) f =
      (f.read (given? (override [] overrides) f.keys)).mapError .config := gives_of_rawFields rfl
  have hnull : gives raw .null f = (f.read (given? fields f.keys)).mapError .config := gives_of_rawFields h
  rw [gives_of_rawFields h, hempty, hnull, given?_keys h]
  split <;> rfl

/-- The fields of a configuration that is made of the same value by itself, where it is accepted. -/
theorem value_of_ofRaw_null {alone : RunConfig} (h : ofRaw raw .null = .ok alone) :
    gives raw .null f = .ok (alone.value f) := by
  have hobj : ofRaw raw (.obj []) = .ok alone := h
  exact ofRaw_eq_ok_iff.mp hobj f

/-- **Overrides win field by field**: a field is what the overrides alone give for it if they hold a value under
    one of its keys, unless they are overlooked, and else what the value alone gives for it. Where the overrides
    or the value are accepted by themselves, that is the field of the configuration that they make. -/
theorem overrides_win (h : ofRaw raw (.obj overrides) = .ok c) (f : ConfigField) :
    (Overrides overrides f → ¬ Overlooked raw overrides f →
      gives (.obj []) (.obj overrides) f = .ok (c.value f) ∧
        ∀ alone, ofRaw (.obj []) (.obj overrides) = .ok alone → c.value f = alone.value f) ∧
    (Overlooked raw overrides f ∨ ¬ Overrides overrides f →
      gives raw .null f = .ok (c.value f) ∧
        ∀ alone, ofRaw raw .null = .ok alone → c.value f = alone.value f) := by
  have hgives := ofRaw_eq_ok_iff.mp h f
  obtain ⟨fields, hfields⟩ : ∃ fields, rawFields raw = .ok fields := by
    rw [ofRaw_obj] at h
    cases hfields : rawFields raw with
    | error fault => rw [hfields] at h; cases h
    | ok fields => exact ⟨fields, rfl⟩
  rw [gives_eq hfields] at hgives
  constructor
  · intro hmeant hseen
    rw [if_pos ⟨hmeant, hseen⟩] at hgives
    refine ⟨hgives, fun alone halone => ?_⟩
    exact Except.ok.inj (hgives.symm.trans (ofRaw_eq_ok_iff.mp halone f))
  · intro hnot
    rw [if_neg (by tauto)] at hgives
    refine ⟨hgives, fun alone halone => ?_⟩
    exact Except.ok.inj (hgives.symm.trans (value_of_ofRaw_null halone))

/-- Where the environment is overridden with null it stays, and a number of cases at once under its second key is
    overlooked beside one under the first. -/
theorem overrides_win_beside_concurrency :
    let raw : Json := .obj [("concurrency", .int 2), ("environment", .str "qa")]
    let overrides : List (String × Json) := [("parallel", .int 5), ("environment", .null), ("timeout", .int 60)]
    let c : RunConfig := { concurrency := 2, environment := .str "qa", timeLimit := .milliseconds 60 }
    ofRaw raw (.obj overrides) = .ok c ∧ Overlooked raw overrides .concurrency ∧
      gives raw .null .concurrency = .ok (c.value .concurrency) ∧
      gives raw .null .environment = .ok (c.value .environment) ∧
      gives (.obj []) (.obj overrides) .timeLimit = .ok (c.value .timeLimit) := by
  intro raw overrides c
  have hc : ofRaw raw (.obj overrides) = .ok c := rfl
  have hoverlooked : Overlooked raw overrides .concurrency := ⟨rfl, by decide, by decide, _, rfl, rfl⟩
  exact ⟨hc, hoverlooked, ((overrides_win hc .concurrency).2 (.inl hoverlooked)).1,
    ((overrides_win hc .environment).2 (.inr (by decide))).1,
    ((overrides_win hc .timeLimit).1 (by decide) (fun ho => nomatch ho.field)).1⟩

/-- Of the two keys of one field the first one counts, be it that of the value or that of the overrides. -/
example :
    ((ofRaw (.obj [("concurrency", .int 2)]) (.obj [("parallel", .int 5)])).map (·.concurrency) = .ok 2) ∧
    ((ofRaw (.obj [("parallel", .int 5)]) (.obj [("concurrency", .int 2)])).map (·.concurrency) = .ok 2) :=
  ⟨rfl, rfl⟩

end RunConfig

end StepRunner
