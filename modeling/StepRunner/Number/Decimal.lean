import StepRunner.Text.Scan

/-!
# Whole numbers in decimal

* `decimal` writes a natural number, `decimalInt` an integer, `numeral` gives its text;
* `ofDigits` reads a list of digit values, most significant first;
* `readInt?` reads an integer as a setting or an option gives it: blanks around it, an optional
  sign, digits of any script, single underscores between digits;
* `padded` writes a number with leading zeros;
* `twoTo` and `tenTo` are the powers of two and of ten.
-/

namespace StepRunner.Number

open Text

/-! ## 1. Writing -/

/-- A power of two. -/
def twoTo (n : Nat) : Nat := Nat.pow 2 n

/-- A power of ten. -/
def tenTo (n : Nat) : Nat := Nat.pow 10 n

/-- The digit of a value below ten. -/
def digitChar (n : Nat) : Char := Char.ofNat (48 + n)

/-- The decimal digits of a number, without leading zeros. -/
def decimal (n : Nat) : List Char :=
  if n < 10 then [digitChar n] else decimal (n / 10) ++ [digitChar (n % 10)]
termination_by n
decreasing_by omega

/-- An integer in decimal, with a minus sign below zero. -/
def decimalInt : Int → List Char
  | .ofNat n => decimal n
  | .negSucc n => '-' :: decimal (n + 1)

/-- The text of an integer. -/
def numeral (n : Int) : String := String.ofList (decimalInt n)

/-- A number in at least `width` digits, zeros in front. -/
def padded (width n : Nat) : List Char :=
  List.replicate (width - (decimal n).length) '0' ++ decimal n

/-- The `width` low hexadecimal digits of a number. -/
def hexadecimal : Nat → Nat → List Char
  | 0, _ => []
  | width + 1, n =>
    hexadecimal width (n / 16) ++
      [if n % 16 < 10 then digitChar (n % 16) else Char.ofNat (87 + n % 16)]

/-! ## 2. Reading -/

/-- The number that digit values denote, the most significant first. -/
def ofDigits (digits : List Nat) : Nat := digits.foldl (fun value d => 10 * value + d) 0

/-- The digit values of a text of digits with single underscores between them. -/
def digitGroups? : List Char → Option (List Nat)
  | [] => none
  | c :: rest =>
    match digitValue? c with
    | none => none
    | some d =>
      match rest with
      | [] => some [d]
      | '_' :: more => (digitGroups? more).map (d :: ·)
      | more => (digitGroups? more).map (d :: ·)

/-- A blank that may surround a number: no information separator. -/
def isNumberBlank (c : Char) : Bool := isBlank c && !(28 ≤ c.toNat && c.toNat ≤ 31)

/-- The most digits that an integer text may have. -/
def digitLimit : Nat := 4300

/-- An integer with an optional sign, digits of any script and single underscores between digits,
    blanks around it, and at most `digitLimit` digits. -/
def readInt? (cs : List Char) : Option Int :=
  let body := dropRightWhile isNumberBlank (cs.dropWhile isNumberBlank)
  let (negative, digits) := match body with
    | '-' :: rest => (true, rest)
    | '+' :: rest => (false, rest)
    | rest => (false, rest)
  (digitGroups? digits).bind fun ds =>
    if ds.length ≤ digitLimit then
      some (if negative then -(ofDigits ds : Int) else (ofDigits ds : Int))
    else none

end StepRunner.Number
