import StepRunner.Number.Decimal

/-!
# UTF-8

`decode` reads bytes as text. A lead byte says how many continuation bytes follow it and between
which bounds the first of them lies, so that overlong forms, surrogates and numbers beyond Unicode are
refused. A refusal names its cause and the bytes it is about. `readable` refuses nothing and puts a
replacement character for what `decode` refuses.
-/

namespace StepRunner.Text.Utf8

open Number

/-- Why bytes are no text. -/
inductive Cause where
  | startByte
  | continuationByte
  | endOfData
  deriving DecidableEq, Repr

/-- The words for a cause. -/
def Cause.words : Cause → String
  | .startByte => "invalid start byte"
  | .continuationByte => "invalid continuation byte"
  | .endOfData => "unexpected end of data"

/-- A refusal: the cause, the place of the first byte that it is about, how many bytes these are, and
    the first of them. -/
structure Refusal where
  cause : Cause
  position : Nat
  length : Nat
  byte : UInt8
  deriving DecidableEq, Repr

/-- The wording of a refusal. -/
def Refusal.message (r : Refusal) : String :=
  let place :=
    if r.length = 1 then
      "byte 0x" ++ String.ofList (hexadecimal 2 r.byte.toNat) ++ " in position "
        ++ numeral r.position
    else
      "bytes in position " ++ numeral r.position ++ "-"
        ++ numeral (r.position + r.length - 1 : Nat)
  "'utf-8' codec can't decode " ++ place ++ ": " ++ r.cause.words

/-- What a lead byte announces: its own bits, the number of continuation bytes, and the bounds of the
    first of them. -/
structure Lead where
  bits : Nat
  more : Nat
  low : Nat
  high : Nat
  deriving DecidableEq, Repr

/-- What a byte announces as a lead byte. -/
def lead? (b : Nat) : Option Lead :=
  if b < 0x80 then some ⟨b, 0, 0, 0⟩
  else if b < 0xC2 then none
  else if b < 0xE0 then some ⟨b - 0xC0, 1, 0x80, 0xBF⟩
  else if b = 0xE0 then some ⟨0, 2, 0xA0, 0xBF⟩
  else if b = 0xED then some ⟨0xD, 2, 0x80, 0x9F⟩
  else if b < 0xF0 then some ⟨b - 0xE0, 2, 0x80, 0xBF⟩
  else if b = 0xF0 then some ⟨0, 3, 0x90, 0xBF⟩
  else if b < 0xF4 then some ⟨b - 0xF0, 3, 0x80, 0xBF⟩
  else if b = 0xF4 then some ⟨4, 3, 0x80, 0x8F⟩
  else none

/-- Where reading stands: between characters, or inside one. -/
inductive State where
  | between
  /-- The bits read, the continuation bytes to come and the bounds of the next one; the bytes read of
      this character and the first of them. -/
  | inside (lead : Lead) (read : Nat) (first : UInt8)
  deriving DecidableEq, Repr

/-- The characters from a state on; `position` bytes were read, and `done` holds the characters before,
    reversed. -/
def decodeFrom (position : Nat) (done : List Char) : State → List UInt8 → Except Refusal (List Char)
  | .between, [] => .ok done.reverse
  | .inside _ read first, [] => .error ⟨.endOfData, position - read, read, first⟩
  | .between, b :: rest =>
    match lead? b.toNat with
    | none => .error ⟨.startByte, position, 1, b⟩
    | some l =>
      if l.more = 0 then decodeFrom (position + 1) (Char.ofNat l.bits :: done) .between rest
      else decodeFrom (position + 1) done (.inside l 1 b) rest
  | .inside l read first, b :: rest =>
    let n := b.toNat
    if n < l.low ∨ l.high < n then .error ⟨.continuationByte, position - read, read, first⟩
    else
      let bits := l.bits * 64 + (n - 0x80)
      if l.more ≤ 1 then decodeFrom (position + 1) (Char.ofNat bits :: done) .between rest
      else decodeFrom (position + 1) done (.inside ⟨bits, l.more - 1, 0x80, 0xBF⟩ (read + 1) first) rest

/-- The text that bytes stand for. -/
def decode (bytes : List UInt8) : Except Refusal (List Char) := decodeFrom 0 [] .between bytes

/-- The text of bytes with a replacement character for what is no text; at most `fuel` of them. -/
def readableFrom : Nat → List UInt8 → List Char
  | 0, _ => []
  | fuel + 1, bytes =>
    match decode bytes with
    | .ok cs => cs
    | .error r =>
      ((decode (bytes.take r.position)).toOption.getD []) ++ '\ufffd'
        :: readableFrom fuel (bytes.drop (r.position + r.length))

/-- The text of bytes with a replacement character for what is no text. -/
def readable (bytes : List UInt8) : List Char := readableFrom (bytes.length + 1) bytes

/-- Line ends as line feeds: a carriage return, alone or before a line feed, is one. -/
def unifyLineEnds : List Char → List Char
  | [] => []
  | '\r' :: '\n' :: rest => '\n' :: unifyLineEnds rest
  | c :: rest => (if c = '\r' then '\n' else c) :: unifyLineEnds rest

end StepRunner.Text.Utf8
