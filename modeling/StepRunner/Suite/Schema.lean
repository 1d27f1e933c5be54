import StepRunner.Json.Display

/-!
# Schemas

A schema says which JSON values are accepted: of which kinds they may be, how small a number or how
short a text, which fields an object must have, and what its fields and items must be. A value that
breaks it does so at a place: `Schema.violations` lists all of them, and `Schema.check` names the one
whose place comes first.

`suiteSchema` is the schema of suites.
-/

namespace StepRunner

open Number

/-! ## 1. Schemas and places -/

/-- A kind of JSON value. -/
inductive Kind where
  | object
  | array
  | string
  | integer
  | boolean
  | null
  deriving DecidableEq, Repr

/-- The name of a kind. -/
def Kind.name : Kind → String
  | .object => "object"
  | .array => "array"
  | .string => "string"
  | .integer => "integer"
  | .boolean => "boolean"
  | .null => "null"

/-- The value is of the kind. A number with an integral value is an integer, however it is written. -/
def Kind.admits : Kind → Json → Bool
  | .object, .obj _ => true
  | .array, .arr _ => true
  | .string, .str _ => true
  | .integer, .int _ => true
  | .integer, .float x => x.isIntegral
  | .boolean, .bool _ => true
  | .null, .null => true
  | _, _ => false

/-- What a value must be. -/
inductive Schema where
  | mk (kinds : List Kind) (nonEmpty positive : Bool) (required : List String)
      (properties : List (String × Schema)) (items : Option Schema)

/-- A step on the way to a place in a value. -/
inductive PathKey where
  | field (name : String)
  | item (index : Nat)
  deriving DecidableEq, Repr

/-- The order of steps: fields by name, items by index. -/
def PathKey.lt : PathKey → PathKey → Bool
  | .field a, .field b => a < b
  | .item i, .item j => i < j
  | .field _, .item _ => false
  | .item _, .field _ => true

/-- The order of places: step by step, and a place before those inside it. -/
def pathLt : List PathKey → List PathKey → Bool
  | [], [] => false
  | [], _ :: _ => true
  | _ :: _, [] => false
  | a :: as, b :: bs => a.lt b || (!b.lt a && pathLt as bs)

/-! ## 2. Violations -/

/-- How a value breaks a schema. -/
inductive Breach where
  | wrongKind (given : Json) (kinds : List Kind)
  | missingField (name : String)
  | notPositive (given : Json)
  | empty (given : Json)

/-- The wording of a breach. -/
def Breach.message : Breach → String
  | .wrongKind j kinds =>
    j.display ++ " is not of type " ++ ", ".intercalate (kinds.map fun k => Text.quote k.name)
  | .missingField name => Text.quote name ++ " is a required property"
  | .notPositive j => j.display ++ " is less than or equal to the minimum of 0"
  | .empty j => j.display ++ " should be non-empty"

/-- A breach and its place. -/
structure Violation where
  path : List PathKey
  breach : Breach

/-- The violation seen from one step further out. -/
def Violation.under (k : PathKey) (v : Violation) : Violation := { v with path := k :: v.path }

/-- A number of at most zero. -/
def atMostZero : Json → Bool
  | .int n => n ≤ 0
  | .float x => x != .nan && !x.isPositive
  | _ => false

/-- A violation at the value itself. -/
def breachIf (condition : Bool) (b : Breach) : List Violation :=
  if condition then [⟨[], b⟩] else []

/-- The fields that an object lacks. -/
def missingFields (required : List String) : Json → List Violation
  | .obj fields =>
    (required.filter fun k => (Json.find? fields k).isNone).map fun k => ⟨[], .missingField k⟩
  | _ => []

/-- The items of an array with their indices. -/
def indexed : Json → List (Nat × Json)
  | .arr items => items.zipIdx.map fun (j, i) => (i, j)
  | _ => []

mutual

/-- All violations of a schema by a value. -/
def Schema.violations : Schema → Json → List Violation
  | .mk kinds nonEmpty positive required properties items, j =>
    breachIf (!kinds.any (·.admits j)) (.wrongKind j kinds)
    ++ breachIf (nonEmpty && j.asString? == some "") (.empty j)
    ++ breachIf (positive && atMostZero j) (.notPositive j)
    ++ missingFields required j
    ++ propertyViolations properties j
    ++ match items with
      | none => []
      | some s => (indexed j).flatMap fun (i, item) =>
          (s.violations item).map (Violation.under (.item i))

/-- The violations in the fields of an object. -/
def propertyViolations : List (String × Schema) → Json → List Violation
  | [], _ => []
  | (name, s) :: rest, j =>
    (match j.get? name with
      | none => []
      | some value => (s.violations value).map (Violation.under (.field name)))
    ++ propertyViolations rest j

end

/-- The first of the violations whose place no other's comes before. -/
def leastViolation? : List Violation → Option Violation
  | [] => none
  | v :: rest =>
    match leastViolation? rest with
    | none => some v
    | some w => if pathLt w.path v.path then some w else some v

/-- Accepts a value that breaks the schema nowhere. -/
def Schema.check (s : Schema) (j : Json) : Except Violation Unit :=
  match leastViolation? (s.violations j) with
  | none => .ok ()
  | some v => .error v

/-! ## 3. Suites -/

namespace Schema

/-- A value of one of the kinds. -/
def ofKinds (kinds : List Kind) : Schema := .mk kinds false false [] [] none

/-- An object with fields. -/
def object (required : List String) (properties : List (String × Schema)) : Schema :=
  .mk [.object] false false required properties none

/-- An array of items. -/
def array (items : Schema) : Schema := .mk [.array] false false [] [] (some items)

end Schema

open Schema

/-- The schema of a test case. -/
def caseSchema : Schema :=
  .object ["id", "title", "steps"]
    [ ("id", ofKinds [.string, .integer]),
      ("title", ofKinds [.string]),
      ("description", ofKinds [.string]),
      ("steps", array (ofKinds [.string])),
      ("expectedResult", ofKinds [.string]) ]

/-- The schema of a configuration. -/
def configSchema : Schema :=
  .object []
    [ ("parallel", ofKinds [.integer]),
      ("concurrency", ofKinds [.integer]),
      ("environment", .mk [.string] true false [] [] none),
      ("timeout", .mk [.integer] false true [] [] none),
      ("aiOptimization", ofKinds [.boolean]),
      ("baseUrl", ofKinds [.string, .null]),
      ("suite", ofKinds [.string, .null]) ]

/-- The schema of a suite. -/
def suiteSchema : Schema :=
  .object ["testCases"]
    [ ("project", ofKinds [.string]),
      ("config", configSchema),
      ("testCases", array caseSchema) ]

end StepRunner
