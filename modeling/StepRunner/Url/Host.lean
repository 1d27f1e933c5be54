import StepRunner.Text.Basic
import StepRunner.Text.Quoted

/-!
# Hosts

Which authorities a URL may have. Brackets must come in pairs and hold an IPv6 address or an address
of a future version; outside ASCII, no character may stand for one that delimits the parts of a URL.
-/

namespace StepRunner.Url

open Text

/-- Why a text is no URL. -/
inductive Fault where
  | unpairedBracket
  | futureAddress
  | bracketedIPv4
  | noAddress (host : String)
  | hiddenDelimiter (authority : String)
  deriving DecidableEq, Repr

/-- The wording of a fault. -/
def Fault.message : Fault → String
  | .unpairedBracket => "Invalid IPv6 URL"
  | .futureAddress => "IPvFuture address is invalid"
  | .bracketedIPv4 => "An IPv4 address cannot be in brackets"
  | .noAddress host => quote host ++ " does not appear to be an IPv4 or IPv6 address"
  | .hiddenDelimiter authority =>
    "netloc '" ++ authority ++ "' contains invalid characters under NFKC normalization"

/-! ## 1. Addresses -/

/-- A hexadecimal digit. -/
def isHexDigit (c : Char) : Bool :=
  isAsciiDigit c || ('a' ≤ c && c ≤ 'f') || ('A' ≤ c && c ≤ 'F')

/-- A number from 0 to 255 without leading zeros. -/
def isOctet (cs : List Char) : Bool :=
  !cs.isEmpty && cs.all isAsciiDigit && cs.length ≤ 3 && (cs.length == 1 || cs.head? != some '0')
    && Number.ofDigits (cs.map fun c => c.toNat - 48) ≤ 255

/-- Four octets with points between them. -/
def isIPv4 (cs : List Char) : Bool :=
  let parts := splitOn '.' cs
  parts.length == 4 && parts.all isOctet

/-- One to four hexadecimal digits. -/
def isHextet (cs : List Char) : Bool := !cs.isEmpty && cs.all isHexDigit && cs.length ≤ 4

/-- The colon-separated parts of an IPv6 address, an IPv4 suffix counted as two parts; none where
    the suffix is no address. -/
def hextets? (cs : List Char) : Option (List (List Char)) :=
  let parts := splitOn ':' cs
  match parts.getLast? with
  | none => none
  | some final =>
    if final.contains '.' then
      if isIPv4 final then some (parts.dropLast ++ [['0'], ['0']]) else none
    else some parts

/-- Parts without a gap: eight, all filled. -/
def isFull (parts : List (List Char)) : Bool := parts.length == 8 && parts.all isHextet

/-- Parts before or after a gap: all filled, or only an empty one at the outer end. -/
def isSide (side : List (List Char)) : Bool := side == [[]] || side.all isHextet

/-- How many parts a side fills. -/
def filled (side : List (List Char)) : Nat := if side == [[]] then 0 else side.length

/-- An IPv6 address without its zone: eight parts, or fewer with one gap among them. -/
def isIPv6Body (cs : List Char) : Bool :=
  if 3 ≤ (splitOn ':' cs).length then
    match hextets? cs with
    | none => false
    | some parts =>
      let inner := parts.tail.dropLast
      match inner.idxOf? [] with
      | none => isFull parts
      | some i =>
        let left := parts.take (i + 1)
        let right := parts.drop (i + 2)
        parts.length ≤ 9 && inner.count [] == 1 && isSide left && isSide right
          && filled left + filled right ≤ 7
  else false

/-- An IPv6 address, with an optional zone after a percent sign. -/
def isIPv6 (cs : List Char) : Bool :=
  !cs.contains '/' &&
    match splitOn '%' cs with
    | [body] => isIPv6Body body
    | [body, zone] => !zone.isEmpty && isIPv6Body body
    | _ => false

/-- `v`, a hexadecimal version, a point, and something after it on one line. -/
def isFutureAddress : List Char → Bool
  | 'v' :: rest =>
    !(rest.takeWhile isHexDigit).isEmpty &&
      match rest.dropWhile isHexDigit with
      | '.' :: address => !address.isEmpty && !address.contains '\n'
      | _ => false
  | _ => false

/-- Checks what stands between brackets. -/
def checkBracketed (host : List Char) : Except Fault Unit :=
  if host.head? = some 'v' then
    if isFutureAddress host then .ok () else .error .futureAddress
  else if isIPv4 host then .error .bracketedIPv4
  else if isIPv6 host then .ok ()
  else .error (.noAddress (String.ofList host))

/-! ## 2. Authorities -/

/-- Characters whose compatibility form holds one of the delimiters `/ ? # @ :`. -/
def hiddenDelimiters : List Char :=
  ['\u2047', '\u2048', '\u2049', '\u2100', '\u2101', '\u2105', '\u2106', '\u2A74', '\uFE13',
    '\uFE16', '\uFE55', '\uFE56', '\uFE5F', '\uFE6B', '\uFF03', '\uFF0F', '\uFF1A', '\uFF1F',
    '\uFF20']

/-- Checks the brackets of an authority. -/
def checkBrackets (authority : List Char) : Except Fault Unit :=
  if authority.contains '[' != authority.contains ']' then .error .unpairedBracket
  else if authority.contains '[' then
    checkBracketed (((authority.dropWhile (· != '[')).drop 1).takeWhile (· != ']'))
  else .ok ()

/-- Checks that no character of an authority hides a delimiter. -/
def checkDelimiters (authority : List Char) : Except Fault Unit :=
  if authority.any hiddenDelimiters.contains then
    .error (.hiddenDelimiter (String.ofList authority))
  else .ok ()

end StepRunner.Url
