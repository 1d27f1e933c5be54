import StepRunner.Text.Utf8
import StepRunner.Url.Host

/-!
# Escapes in URLs

A percent sign and two hexadecimal digits stand for a byte. `unescape` reads a text with such escapes;
a percent sign that begins none stands for itself.
-/

namespace StepRunner.Url

open Text

/-- The value of a hexadecimal digit. -/
def hexValue? (c : Char) : Option Nat :=
  if isAsciiDigit c then some (c.toNat - 48)
  else if 'a' ≤ c ∧ c ≤ 'f' then some (c.toNat - 87)
  else if 'A' ≤ c ∧ c ≤ 'F' then some (c.toNat - 55)
  else none

/-- The bytes of a text with escapes. -/
def escapedBytes : List Char → List UInt8
  | '%' :: a :: b :: rest =>
    match hexValue? a, hexValue? b with
    | some m, some n => UInt8.ofNat (16 * m + n) :: escapedBytes rest
    | _, _ => 37 :: escapedBytes (a :: b :: rest)
  | c :: rest => (String.singleton c).toUTF8.toList ++ escapedBytes rest
  | [] => []

/-- The text that a text with escapes stands for. -/
def unescape (cs : List Char) : List Char := Utf8.readable (escapedBytes cs)

end StepRunner.Url
