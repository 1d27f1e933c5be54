import StepRunner.Text.Basic

/-!
# Base64

`encode` writes bytes in groups of three as four characters, the last group filled up with `=`.
`decode?` reads that: the characters before the padding, in groups of four, and after a last group of
two or three characters exactly the padding that completes it. After a complete group any padding is
passed over.
-/

namespace StepRunner.Text.Base64

/-- The character of six bits. -/
def digit (n : Nat) : Char :=
  if n < 26 then Char.ofNat (65 + n)
  else if n < 52 then Char.ofNat (71 + n)
  else if n < 62 then Char.ofNat (n - 4)
  else if n = 62 then '+'
  else '/'

/-- The six bits of a character. -/
def value? (c : Char) : Option Nat :=
  if 'A' ≤ c ∧ c ≤ 'Z' then some (c.toNat - 65)
  else if 'a' ≤ c ∧ c ≤ 'z' then some (c.toNat - 71)
  else if '0' ≤ c ∧ c ≤ '9' then some (c.toNat + 4)
  else if c = '+' then some 62
  else if c = '/' then some 63
  else none

/-- The characters of a list of bytes. -/
def encode : List UInt8 → List Char
  | [] => []
  | [a] =>
    let n := a.toNat * 16
    [digit (n / 64), digit (n % 64), '=', '=']
  | [a, b] =>
    let n := (a.toNat * 256 + b.toNat) * 4
    [digit (n / 4096), digit (n / 64 % 64), digit (n % 64), '=']
  | a :: b :: c :: rest =>
    let n := (a.toNat * 256 + b.toNat) * 256 + c.toNat
    digit (n / 262144) :: digit (n / 4096 % 64) :: digit (n / 64 % 64) :: digit (n % 64)
      :: encode rest

/-- The bytes of groups of four, the last one of two, three or four. -/
def bytes : List Nat → List UInt8
  | a :: b :: c :: d :: rest =>
    let n := ((a * 64 + b) * 64 + c) * 64 + d
    .ofNat (n / 65536) :: .ofNat (n / 256 % 256) :: .ofNat (n % 256) :: bytes rest
  | [a, b, c] =>
    let n := (a * 64 + b) * 64 + c
    [.ofNat (n / 1024), .ofNat (n / 4 % 256)]
  | [a, b] => [.ofNat ((a * 64 + b) / 16)]
  | _ => []

/-- The padding fits the number of characters before it. -/
def isPadded (digits : Nat) (padding : List Char) : Bool :=
  padding.all (· == '=') &&
    match digits % 4 with
    | 0 => digits != 0 || padding.isEmpty
    | 2 => padding.length == 2
    | 3 => padding.length == 1
    | _ => false

/-- The bytes that a text stands for. -/
def decode? (cs : List Char) : Option (List UInt8) :=
  let digits := cs.takeWhile fun c => (value? c).isSome
  if isPadded digits.length (cs.drop digits.length) then some (bytes (digits.filterMap value?))
  else none

end StepRunner.Text.Base64
