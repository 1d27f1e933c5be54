import StepRunner.Number.Binary64

/-!
# The shortest decimal of a binary64 number

`shortest` finds the decimal with the fewest digits among those that round to the number, and of
those the nearest. It tests, for one digit, two digits and so on, the number's two neighbours on
that decimal grid: if any point of a grid rounds to the number, so does one of the two.

`Binary64.text` writes it: positional from `0.0001` up to below `10 ^ 16`, with `.0` after a whole
number, and with a signed exponent of at least two digits elsewhere.
-/

namespace StepRunner.Binary64

open Number

/-! ## 1. Digits -/

/-- The decimal exponent of the leading digit of a magnitude in smallest units. -/
def leadingExponent (magnitude : Nat) : Int :=
  ((decimal (magnitude * tenTo 340 / unitsPerOne)).length : Int) - 341

/-- The numbers, in quarters of a smallest unit, between which everything rounds to the finite
    number: the gap below is half as wide where the significand is the least of its exponent. -/
def roundingInterval (significand exponent : Nat) : Nat × Nat :=
  let value := 4 * units significand exponent
  let gap := 2 * twoTo exponent
  let below := if significand = twoTo 52 ∧ 0 < exponent then gap / 2 else gap
  (value - below, value + gap)

/-- `point · 10 ^ power` rounds to the finite number. -/
def roundsTo (significand exponent : Nat) (point : Nat) (power : Int) : Bool :=
  let (low, high) := roundingInterval significand exponent
  let num := 4 * unitsPerOne * point * tenTo power.toNat
  let den := tenTo (-power).toNat
  if significand % 2 = 0 then low * den ≤ num && num ≤ high * den
  else low * den < num && num < high * den

/-- The grid point with exponent `power` that rounds to the finite number, of two the nearer. -/
def onGrid? (significand exponent : Nat) (power : Int) : Option Nat :=
  let magnitude := units significand exponent
  let num := magnitude * tenTo (-power).toNat
  let den := unitsPerOne * tenTo power.toNat
  let under := num / den
  let underFits := roundsTo significand exponent under power
  let overFits := roundsTo significand exponent (under + 1) power
  if underFits && overFits then some (roundHalfEven num den)
  else if underFits then some under
  else if overFits then some (under + 1)
  else none

/-- The first grid, from `tried` digits on, that has a point for the number. -/
def firstGrid (significand exponent : Nat) (lead : Int) : Nat → Nat → Nat × Int
  | tried, 0 =>
    let power := lead - tried
    (roundHalfEven (units significand exponent * tenTo (-power).toNat)
      (unitsPerOne * tenTo power.toNat), power)
  | tried, more + 1 =>
    match onGrid? significand exponent (lead - tried) with
    | some point => (point, lead - tried)
    | none => firstGrid significand exponent lead (tried + 1) more

/-- Drops trailing zeros of the digits, raising the exponent. -/
def dropZeros : List Char → Int → List Char × Int
  | digits, power =>
    let zeros := (digits.reverse.takeWhile (· == '0')).length
    (digits.take (digits.length - zeros), power + zeros)

/-- The shortest digits of a finite number other than zero, and the exponent of the last one. -/
def shortest (significand exponent : Nat) : List Char × Int :=
  let lead := leadingExponent (units significand exponent)
  let (point, power) := firstGrid significand exponent lead 0 17
  dropZeros (decimal point) power

/-! ## 2. Text -/

/-- Digits with the point after the leading digit, and a signed exponent. -/
def scientific (digits : List Char) (lead : Int) : List Char :=
  let mantissa := match digits with
    | [] => []
    | [d] => [d]
    | d :: rest => d :: '.' :: rest
  mantissa ++ ['e', if lead < 0 then '-' else '+'] ++ padded 2 lead.natAbs

/-- Digits with the point where the exponent puts it, and at least one digit on either side. -/
def positional (digits : List Char) (power : Int) : List Char :=
  if 0 ≤ power then digits ++ List.replicate power.toNat '0' ++ ['.', '0']
  else
    let places := power.natAbs
    let wide := List.replicate (places + 1 - digits.length) '0' ++ digits
    wide.take (wide.length - places) ++ '.' :: wide.drop (wide.length - places)

/-- The shortest text that reads back as the number. -/
def text : Binary64 → List Char
  | .nan => "nan".toList
  | .infinite negative => (if negative then "-inf" else "inf").toList
  | .finite negative m p =>
    let sign := if negative then ['-'] else []
    if m = 0 then sign ++ "0.0".toList
    else
      let (digits, power) := shortest m p
      let lead := power + digits.length - 1
      sign ++ if -4 ≤ lead ∧ lead < 16 then positional digits power else scientific digits lead

end StepRunner.Binary64
