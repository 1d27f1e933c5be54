import StepRunner.Number.Decimal

/-!
# Binary64 numbers

Floating-point numbers with a 53-bit significand, in exact arithmetic on natural numbers. A finite
number is `± significand · 2 ^ exponent / 2 ^ 1074`, with `significand < 2 ^ 53` and either
`2 ^ 52 ≤ significand` or `exponent = 0`, so that equal numbers of one sign have equal fields.

* `ofRatio` rounds a quotient to the nearest number, ties to the even significand;
* `ofDecimal` rounds a decimal `digits · 10 ^ exponent`;
* `mul`, `add`, `quotient?`: an exact result rounded once;
* `truncate?`: the integer part;
* `fixed`: a decimal with a fixed number of places, ties to the even last digit.
-/

namespace StepRunner

/-- A number of the binary64 format. -/
inductive Binary64 where
  | finite (negative : Bool) (significand exponent : Nat)
  | infinite (negative : Bool)
  | nan
  deriving DecidableEq, Repr, Inhabited

namespace Binary64

open Number

/-! ## 1. Rounding -/

/-- `2 ^ 1074`: the number of smallest units in one. -/
def unitsPerOne : Nat := twoTo 1074

/-- The whole number nearest to `num / den`; of two equally near the even one. -/
def roundHalfEven (num den : Nat) : Nat :=
  let quotient := num / den
  let twice := 2 * (num % den)
  if twice < den then quotient
  else if den < twice then quotient + 1
  else quotient + quotient % 2

/-- Infinity beyond the greatest exponent. -/
def pack (negative : Bool) (significand exponent : Nat) : Binary64 :=
  if 2045 < exponent then .infinite negative else .finite negative significand exponent

/-- The number nearest to `num / den` smallest units. -/
def ofUnits (negative : Bool) (num den : Nat) : Binary64 :=
  let whole := num / den
  let exponent := if whole < twoTo 53 then 0 else whole.log2 - 52
  let significand := roundHalfEven num (den * twoTo exponent)
  if significand = twoTo 53 then pack negative (twoTo 52) (exponent + 1)
  else pack negative significand exponent

/-- The number nearest to `num / den`. -/
def ofRatio (negative : Bool) (num den : Nat) : Binary64 :=
  ofUnits negative (num * unitsPerOne) den

/-- The number nearest to an integer. -/
def ofInt (n : Int) : Binary64 := ofRatio (n < 0) n.natAbs 1

/-- The number nearest to `digits · 10 ^ exponent`, `digits` written with `length` digits. Far
    outside the format's range the power is not computed. -/
def ofDecimal (negative : Bool) (digits length : Nat) (exponent : Int) : Binary64 :=
  if digits = 0 ∨ (length : Int) + exponent < -330 then .finite negative 0 0
  else if 330 < exponent + (decimalWidth digits : Int) then .infinite negative
  else if 0 ≤ exponent then ofRatio negative (digits * tenTo exponent.toNat) 1
  else ofRatio negative digits (tenTo (-exponent).toNat)
where
  /-- One less than the number of decimal digits, or less. -/
  decimalWidth (n : Nat) : Nat := n.log2 * 3 / 10

/-! ## 2. Arithmetic -/

/-- The magnitude of a finite number in smallest units. -/
def units (significand exponent : Nat) : Nat := significand * twoTo exponent

/-- The product, rounded once. -/
def mul : Binary64 → Binary64 → Binary64
  | .nan, _ => .nan
  | _, .nan => .nan
  | .infinite a, .infinite b => .infinite (a != b)
  | .infinite a, .finite b m _ => if m = 0 then .nan else .infinite (a != b)
  | .finite a m _, .infinite b => if m = 0 then .nan else .infinite (a != b)
  | .finite a m p, .finite b n q => ofUnits (a != b) (units m p * units n q) unitsPerOne

/-- A finite number in smallest units, with its sign. -/
def signedUnits (negative : Bool) (significand exponent : Nat) : Int :=
  if negative then -(units significand exponent : Int) else (units significand exponent : Int)

/-- The sum, rounded once. -/
def add : Binary64 → Binary64 → Binary64
  | .nan, _ => .nan
  | _, .nan => .nan
  | .infinite a, .infinite b => if a = b then .infinite a else .nan
  | .infinite a, .finite .. => .infinite a
  | .finite .., .infinite b => .infinite b
  | .finite a m p, .finite b n q =>
    let sum := signedUnits a m p + signedUnits b n q
    if sum = 0 then .finite (a && b) 0 0 else ofUnits (sum < 0) sum.natAbs 1

/-- The quotient of two integers, the divisor not zero; none where it is beyond the format. -/
def quotient? (n d : Int) : Option Binary64 :=
  match ofRatio ((n < 0) != (d < 0)) n.natAbs d.natAbs with
  | .infinite _ => none
  | x => some x

/-- The integer part, toward zero; none for infinities and for what is no number. -/
def truncate? : Binary64 → Option Int
  | .finite negative m p =>
    let whole : Nat := units m p / unitsPerOne
    some (if negative then -(whole : Int) else (whole : Int))
  | _ => none

/-! ## 3. Tests -/

/-- Zero of either sign. -/
def isZero : Binary64 → Bool
  | .finite _ m _ => m == 0
  | _ => false

/-- Greater than zero. -/
def isPositive : Binary64 → Bool
  | .finite negative m _ => !negative && m != 0
  | .infinite negative => !negative
  | .nan => false

/-- Infinity of either sign. -/
def isInfinite : Binary64 → Bool
  | .infinite _ => true
  | _ => false

/-- A finite number with an integral value. -/
def isIntegral : Binary64 → Bool
  | .finite _ m p => units m p % unitsPerOne == 0
  | _ => false

/-- The function is opened as a whole, and beside its definition: on numbers that are not known the
    rounding would be carried out. -/
theorem quotient?_def : quotient? = fun n d =>
    match ofRatio ((n < 0) != (d < 0)) n.natAbs d.natAbs with
    | .infinite _ => none
    | x => some x := rfl

theorem isSome_quotient?_eq (n d : Int) :
    (quotient? n d).isSome = !(ofRatio ((n < 0) != (d < 0)) n.natAbs d.natAbs).isInfinite := by
  rw [quotient?_def]
  dsimp only
  generalize ofRatio ((n < 0) != (d < 0)) n.natAbs d.natAbs = x
  cases x with
  | infinite | finite | nan => rfl

/-! ## 4. Fixed places -/

/-- A decimal with `places` digits after the point, rounded from the exact value; a tie goes to
    the even last digit. -/
def fixed (places : Nat) : Binary64 → List Char
  | .nan => "nan".toList
  | .infinite negative => (if negative then "-inf" else "inf").toList
  | .finite negative m p =>
    let scaled := roundHalfEven (units m p * tenTo places) unitsPerOne
    let digits := Number.padded (places + 1) scaled
    let whole := digits.take (digits.length - places)
    let fraction := digits.drop (digits.length - places)
    (if negative then ['-'] else []) ++ whole ++ (if places = 0 then [] else '.' :: fraction)

end Binary64

end StepRunner
