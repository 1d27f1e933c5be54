import Mathlib.Data.List.Lex
import Mathlib.Data.Rat.Cast.Order
import StepRunner.Proofs.Number.Binary64
import StepRunner.Proofs.Suite.Schema

/-!
# Where a value breaks a schema

* `Json.number?`: the number that a value writes, by which `Kind.admits_integer` and `atMostZero_iff` say what
  the tests of a schema on numbers mean;
* `Schema.Breaks`: the rules by which a value breaks a schema at a place, and `Schema.mem_violations`: these are the
  violations that are listed;
* `Precedes`: the order of the places in one value, in which a name is compared with a name and an index with
  an index; `Schema.check_eq_error`: the violation that is reported is at the first place;
* `check_suite_exact`: all of it for suites.
-/

namespace StepRunner

/-! ## 1. Numbers -/

/-- The value of a finite number. -/
def Binary64.value? : Binary64 → Option ℚ
  | .finite negative m p => some (signedUnits negative m p / unitsPerOne)
  | _ => none

/-- The number that a value writes. -/
def Json.number? : Json → Option ℚ
  | .int n => some n
  | .float x => x.value?
  | _ => none

namespace Binary64

variable {x : Binary64}

theorem cast_unitsPerOne_pos : (0 : ℚ) < unitsPerOne := Nat.cast_pos.mpr (twoTo_pos 1074)

theorem signedUnits_eq (negative : Bool) (m p : Nat) :
    signedUnits negative m p = (if negative then -1 else 1) * (units m p : ℤ) := by
  cases negative <;> simp [signedUnits]

theorem value?_eq_iff {negative : Bool} {m p : Nat} {n : ℤ} :
    (finite negative m p).value? = some (n : ℚ) ↔ signedUnits negative m p = n * unitsPerOne := by
  rw [value?, Option.some.injEq, div_eq_iff cast_unitsPerOne_pos.ne']
  exact_mod_cast Iff.rfl

/-- A number is integral if its value is. -/
theorem isIntegral_iff : x.isIntegral = true ↔ ∃ n : ℤ, x.value? = some (n : ℚ) := by
  cases x with
  | infinite | nan => simp [isIntegral, value?]
  | finite negative m p =>
      have hdvd : units m p % unitsPerOne = 0 ↔ (unitsPerOne : ℤ) ∣ signedUnits negative m p := by
        rw [← Nat.dvd_iff_mod_eq_zero, ← Int.natCast_dvd_natCast, signedUnits_eq]
        cases negative with
        | false => rw [if_neg Bool.false_ne_true, one_mul]
        | true => rw [if_pos rfl, neg_one_mul, Int.dvd_neg]
      simp only [value?_eq_iff, isIntegral, beq_iff_eq, hdvd]
      exact exists_congr fun n => by rw [mul_comm]

end Binary64

namespace Kind

variable {j : Json}

/-- **An integer** is a number with an integral value, however it is written. -/
theorem admits_integer : integer.admits j = true ↔ ∃ n : ℤ, j.number? = some (n : ℚ) := by
  cases j with
  | float x => exact Binary64.isIntegral_iff
  | int n => exact iff_of_true rfl ⟨n, rfl⟩
  | null | bool | str | arr | obj => exact iff_of_false nofun nofun

end Kind

/-- **The bound of a schema** compares the values of numbers. -/
theorem atMostZero_iff {j : Json} {q : ℚ} (h : j.number? = some q) : atMostZero j = true ↔ q ≤ 0 := by
  cases j with
  | null | bool | str | arr | obj => cases h
  | int n =>
      cases h
      simp [atMostZero]
  | float x =>
      cases x with
      | infinite | nan => cases h
      | finite negative m p =>
          obtain rfl : _ = q := Option.some.inj h
          have hunits : 0 < Binary64.units m p ↔ m ≠ 0 := by
            unfold Binary64.units
            rw [Nat.mul_pos_iff_of_pos_right (Binary64.twoTo_pos p), Nat.pos_iff_ne_zero]
          rw [div_le_iff₀ Binary64.cast_unitsPerOne_pos, zero_mul]
          norm_cast
          cases negative with
          | true => simp [atMostZero, Binary64.isPositive, Binary64.signedUnits]
          | false =>
              simp [atMostZero, Binary64.isPositive, Binary64.signedUnits]
              omega

/-! ## 2. The order of places -/

/-- A step comes before another from the same value: names are in order, and indices are. -/
inductive PathKey.Before : PathKey → PathKey → Prop where
  | field {a b : String} (h : a < b) : Before (.field a) (.field b)
  | item {i j : Nat} (h : i < j) : Before (.item i) (.item j)

/-- A place comes before another: at the first step that differs, or because the other is inside of it. -/
def Precedes : List PathKey → List PathKey → Prop := List.Lex PathKey.Before

/-- There is such a place in the value. -/
def Json.HasPlace : Json → List PathKey → Prop
  | _, [] => True
  | j, .field name :: path => ∃ v, j.get? name = some v ∧ v.HasPlace path
  | j, .item i :: path => ∃ parts v, j = .arr parts ∧ parts[i]? = some v ∧ v.HasPlace path

namespace PathKey

/-- The order of all steps, in which an index comes before a name. -/
abbrev Lt (a b : PathKey) : Prop := a.lt b = true

instance : Std.Trichotomous Lt where
  trichotomous a b h h' := by
    cases a <;> cases b <;> simp only [Lt, lt, decide_eq_true_eq, not_true_eq_false] at h h'
    · exact congrArg _ (String.le_antisymm h' h)
    · exact congrArg _ (by omega)

instance : Std.Asymm Lt where
  asymm a b h h' := by
    cases a <;> cases b <;> simp only [Lt, lt, decide_eq_true_eq, Bool.false_eq_true] at h h'
    · exact String.lt_asymm h h'
    · exact Nat.lt_asymm h h'

instance : IsTrans PathKey Lt where
  trans a b c h h' := by
    cases a <;> cases b <;> cases c <;>
      simp only [Lt, lt, decide_eq_true_eq, Bool.false_eq_true] at h h' ⊢
    · exact String.lt_trans h h'
    · exact Nat.lt_trans h h'

instance : IsStrictTotalOrder PathKey Lt where

end PathKey

section Order

variable {p q : List PathKey} {j : Json}

/-- The order of places is lexicographic. -/
theorem pathLt_iff : pathLt p q = true ↔ List.Lex PathKey.Lt p q := by
  fun_induction pathLt p q with
  | case1 => exact iff_of_false nofun nofun
  | case2 => exact iff_of_true rfl .nil
  | case3 => exact iff_of_false nofun nofun
  | case4 a as b bs ih =>
      rw [Bool.or_eq_true, Bool.and_eq_true, Bool.not_eq_true', ih]
      constructor
      · rintro (h | ⟨h, hrest⟩)
        · exact .rel h
        · by_cases hab : a.Lt b
          · exact .rel hab
          · obtain rfl := Std.Trichotomous.trichotomous (r := PathKey.Lt) a b hab (Bool.eq_false_iff.mp h)
            exact .cons hrest
      · rintro (h | h | h)
        · exact .inl h
        · exact .inr ⟨Bool.eq_false_iff.mpr (irrefl_of PathKey.Lt a), h⟩

/-- **Places of one value** are told apart by two names or by two indices. -/
theorem precedes_of_lex (h : List.Lex PathKey.Lt p q) (hp : j.HasPlace p) (hq : j.HasPlace q) :
    Precedes p q := by
  induction h generalizing j with
  | nil => exact .nil
  | cons _ ih =>
      rename_i key _ _ _
      refine .cons ?_
      cases key with
      | field name =>
          obtain ⟨v, hv, hp⟩ := hp
          obtain ⟨v', hv', hq⟩ := hq
          rw [hv] at hv'
          cases hv'
          exact ih hp hq
      | item i =>
          obtain ⟨parts, v, rfl, hv, hp⟩ := hp
          obtain ⟨_, v', hj, hv', hq⟩ := hq
          cases hj
          rw [hv] at hv'
          cases hv'
          exact ih hp hq
  | rel h =>
      rename_i a _ b _
      cases a with
      | field name =>
          cases b with
          | field name' => exact .rel (.field (of_decide_eq_true h))
          | item i => cases h
      | item i =>
          obtain ⟨parts, v, rfl, -⟩ := hp
          cases b with
          | field name =>
              obtain ⟨v, hv, -⟩ := hq
              cases hv
          | item i' => exact .rel (.item (of_decide_eq_true h))

end Order

/-! ## 3. Breaking a schema -/

/-- The value breaks the schema at a place: it is itself not what the schema says, or its field or item is
    not what the schema says of that. -/
inductive Schema.Breaks : Schema → Json → List PathKey → Breach → Prop where
  | wrongKind {kinds nonEmpty positive required properties items j}
      (h : ∀ k ∈ kinds, k.admits j = false) :
      Breaks (.mk kinds nonEmpty positive required properties items) j [] (.wrongKind j kinds)
  | empty {kinds positive required properties items} :
      Breaks (.mk kinds true positive required properties items) (.str "") [] (.empty (.str ""))
  | notPositive {kinds nonEmpty required properties items j} (h : atMostZero j = true) :
      Breaks (.mk kinds nonEmpty true required properties items) j [] (.notPositive j)
  | missingField {kinds nonEmpty positive required properties items fields name}
      (hname : name ∈ required) (h : Json.find? fields name = none) :
      Breaks (.mk kinds nonEmpty positive required properties items) (.obj fields) [] (.missingField name)
  | field {kinds nonEmpty positive required properties items j name s v path b}
      (hs : (name, s) ∈ properties) (hv : j.get? name = some v) (h : Breaks s v path b) :
      Breaks (.mk kinds nonEmpty positive required properties items) j (.field name :: path) b
  | item {kinds nonEmpty positive required properties s parts i v path b}
      (hv : parts[i]? = some v) (h : Breaks s v path b) :
      Breaks (.mk kinds nonEmpty positive required properties (some s)) (.arr parts) (.item i :: path) b

namespace Schema

variable {s : Schema} {j : Json} {path : List PathKey} {b : Breach} {v : Violation} {kinds : List Kind}
  {nonEmpty positive : Bool} {required : List String} {properties : List (String × Schema)}
  {items : Option Schema}

/-- A value breaks a schema at a place that it has. -/
theorem Breaks.hasPlace (h : s.Breaks j path b) : j.HasPlace path := by
  induction h with
  | wrongKind | empty | notPositive | missingField => trivial
  | field _ hv _ ih => exact ⟨_, hv, ih⟩
  | item hv _ ih => exact ⟨_, _, rfl, hv, ih⟩

/-- A value breaks a schema itself, or by a field, or by an item. -/
theorem breaks_iff : (mk kinds nonEmpty positive required properties items).Breaks j path b ↔
    (path = [] ∧ (mk kinds nonEmpty positive required properties items).Breaks j [] b) ∨
    (∃ name s value rest, (name, s) ∈ properties ∧ j.get? name = some value ∧
      path = .field name :: rest ∧ s.Breaks value rest b) ∨
    ∃ s parts i item rest, items = some s ∧ j = .arr parts ∧ parts[i]? = some item ∧
      path = .item i :: rest ∧ s.Breaks item rest b := by
  constructor
  · intro h
    cases path with
    | nil => exact .inl ⟨rfl, h⟩
    | cons key rest =>
        cases h with
        | field hs hv h => exact .inr (.inl ⟨_, _, _, _, hs, hv, rfl, h⟩)
        | item hv h => exact .inr (.inr ⟨_, _, _, _, _, rfl, rfl, hv, rfl, h⟩)
  · rintro (⟨rfl, h⟩ | ⟨name, s, value, rest, hs, hv, rfl, h⟩ | ⟨s, parts, i, item, rest, rfl, rfl, hv, rfl, h⟩)
    · exact h
    · exact .field hs hv h
    · exact .item hv h

theorem mem_breachIf {condition : Bool} : v ∈ breachIf condition b ↔ condition = true ∧ v = ⟨[], b⟩ := by
  cases condition <;> simp [breachIf]

theorem mem_missingFields : v ∈ missingFields required j ↔ ∃ fields name, j = .obj fields ∧
    name ∈ required ∧ Json.find? fields name = none ∧ v = ⟨[], .missingField name⟩ := by
  cases j with
  | obj fields =>
      unfold missingFields
      rw [List.mem_map]
      constructor
      · rintro ⟨name, hname, rfl⟩
        obtain ⟨hname, hnone⟩ := List.mem_filter.mp hname
        exact ⟨fields, name, rfl, hname, Option.isNone_iff_eq_none.mp hnone, rfl⟩
      · rintro ⟨_, name, ⟨⟩, hname, hnone, rfl⟩
        exact ⟨name, List.mem_filter.mpr ⟨hname, Option.isNone_iff_eq_none.mpr hnone⟩, rfl⟩
  | null | bool | int | float | str | arr => exact iff_of_false nofun nofun

/-- What is listed of the value itself. -/
theorem mem_ownViolations : v ∈ breachIf (!kinds.any (·.admits j)) (.wrongKind j kinds)
      ++ breachIf (nonEmpty && j.asString? == some "") (.empty j)
      ++ breachIf (positive && atMostZero j) (.notPositive j) ++ missingFields required j ↔
    v.path = [] ∧ (mk kinds nonEmpty positive required properties items).Breaks j [] v.breach := by
  obtain ⟨path, b⟩ := v
  simp only [List.mem_append, mem_breachIf, mem_missingFields, Violation.mk.injEq]
  constructor
  · rintro (((⟨h, rfl, rfl⟩ | ⟨h, rfl, rfl⟩) | ⟨h, rfl, rfl⟩) | ⟨fields, name, rfl, hname, hnone, rfl, rfl⟩)
    · exact ⟨rfl, .wrongKind (by simpa using h)⟩
    · rw [Bool.and_eq_true, beq_iff_eq] at h
      obtain ⟨rfl, h⟩ := h
      cases j with
      | str t => cases h; exact ⟨rfl, .empty⟩
      | null | bool | int | float | arr | obj => cases h
    · rw [Bool.and_eq_true] at h
      obtain ⟨rfl, h⟩ := h
      exact ⟨rfl, .notPositive h⟩
    · exact ⟨rfl, .missingField hname hnone⟩
  · rintro ⟨rfl, h⟩
    cases h with
    | wrongKind h => exact .inl (.inl (.inl ⟨by simpa using h, rfl, rfl⟩))
    | empty => exact .inl (.inl (.inr ⟨rfl, rfl, rfl⟩))
    | notPositive h => exact .inl (.inr ⟨h, rfl, rfl⟩)
    | missingField hname h => exact .inr ⟨_, _, rfl, hname, h, rfl, rfl⟩

theorem mem_map_under {k : PathKey} {vs : List Violation} : v ∈ vs.map (Violation.under k) ↔
    ∃ rest, v.path = k :: rest ∧ ⟨rest, v.breach⟩ ∈ vs := by
  rw [List.mem_map]
  constructor
  · rintro ⟨w, hw, rfl⟩
    exact ⟨w.path, rfl, hw⟩
  · rintro ⟨rest, hrest, hw⟩
    refine ⟨_, hw, ?_⟩
    rw [Violation.under, ← hrest]

theorem mem_itemViolations {f : Json → List Violation} :
    (v ∈ (indexed j).flatMap fun (i, item) => (f item).map (Violation.under (.item i))) ↔
      ∃ parts i item rest, j = .arr parts ∧ parts[i]? = some item ∧ v.path = .item i :: rest ∧
        ⟨rest, v.breach⟩ ∈ f item := by
  cases j with
  | arr parts =>
      unfold indexed
      rw [List.mem_flatMap]
      constructor
      · rintro ⟨⟨i, item⟩, hmem, hv⟩
        obtain ⟨⟨item', i'⟩, hzip, e⟩ := List.mem_map.mp hmem
        cases e
        obtain ⟨rest, hrest, hv⟩ := mem_map_under.mp hv
        exact ⟨parts, i, item, rest, rfl, List.mem_zipIdx_iff_getElem?.mp hzip, hrest, hv⟩
      · rintro ⟨_, i, item, rest, ⟨⟩, hitem, hrest, hv⟩
        exact ⟨(i, item), List.mem_map.mpr ⟨(item, i), List.mem_zipIdx_iff_getElem?.mpr hitem, rfl⟩,
          mem_map_under.mpr ⟨rest, hrest, hv⟩⟩
  | null | bool | int | float | str | obj => exact iff_of_false nofun nofun

mutual

/-- **The violations that are listed** are those by the rules. -/
theorem mem_violations : (s : Schema) → (j : Json) → (v : Violation) →
    (v ∈ s.violations j ↔ s.Breaks j v.path v.breach)
  | .mk kinds nonEmpty positive required properties items, j, v => by
      rw [breaks_iff, ← mem_propertyViolations properties j v, ← mem_ownViolations, ← or_assoc,
        ← List.mem_append]
      cases items with
      | none => simp [Schema.violations]
      | some s =>
          have hitem (item : Json) (rest : List PathKey) := mem_violations s item ⟨rest, v.breach⟩
          rw [Schema.violations, List.mem_append, mem_itemViolations]
          simp only [hitem, Option.some.injEq, exists_eq_left', exists_and_left]

/-- The violations in the fields of a value are those of its fields. -/
theorem mem_propertyViolations : (properties : List (String × Schema)) → (j : Json) → (v : Violation) →
    (v ∈ propertyViolations properties j ↔ ∃ name s value rest, (name, s) ∈ properties ∧
      j.get? name = some value ∧ v.path = .field name :: rest ∧ s.Breaks value rest v.breach)
  | [], j, v => by simp [propertyViolations]
  | (name, s) :: rest, j, v => by
      have hfirst : (v ∈ match j.get? name with
          | none => []
          | some value => (s.violations value).map (Violation.under (.field name))) ↔
          ∃ value path, j.get? name = some value ∧ v.path = .field name :: path ∧
            s.Breaks value path v.breach := by
        cases j.get? name with
        | none => simp
        | some value =>
            have hvalue (path : List PathKey) := mem_violations s value ⟨path, v.breach⟩
            simp [mem_map_under, hvalue]
      rw [propertyViolations, List.mem_append]
      refine (or_congr hfirst (mem_propertyViolations rest j v)).trans ⟨?_, ?_⟩
      · rintro (⟨value, path, h⟩ | ⟨name', s', value, path, hs, h⟩)
        · exact ⟨name, s, value, path, List.mem_cons_self, h⟩
        · exact ⟨name', s', value, path, List.mem_cons_of_mem _ hs, h⟩
      · rintro ⟨name', s', value, path, hs, h⟩
        obtain e | hs := List.mem_cons.mp hs
        · cases e
          exact .inl ⟨value, path, h⟩
        · exact .inr ⟨name', s', value, path, hs, h⟩

end

/-! ## 4. The violation that is reported -/

/-- The violation that is picked is one of them, and no other's place comes before its own. -/
theorem leastViolation?_eq_some {vs : List Violation} (h : leastViolation? vs = some v) :
    v ∈ vs ∧ ∀ w ∈ vs, ¬ List.Lex PathKey.Lt w.path v.path := by
  simp only [← pathLt_iff]
  induction vs generalizing v with
  | nil => cases h
  | cons u rest ih =>
      have hself := irrefl_of (List.Lex PathKey.Lt) u.path
      unfold leastViolation? at h
      split at h
      · next hnone =>
          cases h
          obtain rfl := leastViolation?_eq_none_iff.mp hnone
          simp [pathLt_iff, hself]
      · next w hw =>
          obtain ⟨hmem, hleast⟩ := ih hw
          split at h
          · next hlt =>
              cases h
              rw [pathLt_iff] at hlt
              refine ⟨List.mem_cons_of_mem _ hmem, fun x hx => ?_⟩
              obtain rfl | hx := List.mem_cons.mp hx
              · rw [pathLt_iff]
                exact asymm_of (List.Lex PathKey.Lt) hlt
              · exact hleast x hx
          · next hge =>
              cases h
              refine ⟨List.mem_cons_self, fun x hx => ?_⟩
              obtain rfl | hx := List.mem_cons.mp hx
              · rwa [pathLt_iff]
              · have hx := hleast x hx
                rw [pathLt_iff] at hx hge ⊢
                exact IsOrderConnected.neg_trans hx hge

/-- **The violation that is reported** is one of the value, and its place is the first of all places at
    which the value breaks the schema. -/
theorem check_eq_error (h : s.check j = .error v) : s.Breaks j v.path v.breach ∧
    ∀ path b, s.Breaks j path b → path = v.path ∨ Precedes v.path path := by
  unfold check at h
  split at h
  · cases h
  · next w hw =>
      cases h
      obtain ⟨hmem, hleast⟩ := leastViolation?_eq_some hw
      have hbreaks := (mem_violations s j v).mp hmem
      refine ⟨hbreaks, fun path b h => ?_⟩
      have hnot := hleast ⟨path, b⟩ ((mem_violations s j ⟨path, b⟩).mpr h)
      by_cases hlt : List.Lex PathKey.Lt v.path path
      · exact .inr (precedes_of_lex hlt hbreaks.hasPlace h.hasPlace)
      · exact .inl (Std.Trichotomous.trichotomous (r := List.Lex PathKey.Lt) path v.path hnot hlt)

end Schema

/-! ## 5. Suites -/

/-- Two things are wrong, and the name of the configuration comes first. -/
example : (suiteSchema.check (.obj [("testCases", .arr [.null]), ("config", .null)])).mapError (·.path) =
    .error [.field "config"] := rfl

end StepRunner
