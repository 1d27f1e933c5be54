import StepRunner.Url.Host

/-!
# URL references

A reference is split into scheme, authority, path, parameters, query and fragment by the delimiters
`: // ; ? #`, and `Reference.text` puts the parts together again. `join` resolves a reference
against a base: dot segments are removed, doubled slashes inside the path vanish, and a scheme that
is no relative one is left alone.
-/

namespace StepRunner.Url

open Text

/-- The parts of a URL reference. -/
structure Reference where
  scheme : List Char
  authority : List Char
  path : List Char
  parameters : List Char
  query : List Char
  fragment : List Char
  deriving DecidableEq, Repr

/-! ## 1. Schemes -/

/-- Schemes whose references may be relative. -/
def relativeSchemes : List String :=
  ["", "ftp", "http", "gopher", "nntp", "imap", "wais", "file", "https", "shttp", "mms",
    "prospero", "rtsp", "rtsps", "rtspu", "sftp", "svn", "svn+ssh", "ws", "wss"]

/-- Schemes whose references have an authority. -/
def authoritySchemes : List String :=
  ["", "ftp", "http", "gopher", "nntp", "telnet", "imap", "wais", "file", "mms", "https", "shttp",
    "snews", "prospero", "rtsp", "rtsps", "rtspu", "rsync", "svn", "svn+ssh", "sftp", "nfs", "git",
    "git+ssh", "ws", "wss"]

/-- Schemes whose last segment may have parameters. -/
def parameterSchemes : List String :=
  ["", "ftp", "hdl", "prospero", "http", "imap", "https", "shttp", "rtsp", "rtsps", "rtspu", "sip",
    "sips", "mms", "sftp", "tel"]

/-- The scheme is in the list. -/
def isIn (schemes : List String) (scheme : List Char) : Bool :=
  schemes.contains (String.ofList scheme)

/-- A character of a scheme. -/
def isSchemeChar (c : Char) : Bool := c.isAlphanum || c == '+' || c == '-' || c == '.'

/-! ## 2. Splitting -/

/-- The texts before and after the first occurrence of a character. -/
def cut? (c : Char) (cs : List Char) : Option (List Char × List Char) :=
  if cs.contains c then some (cs.takeWhile (· != c), (cs.dropWhile (· != c)).drop 1) else none

/-- The scheme, in lower case, and the rest; the given scheme where the text has none. -/
def splitScheme (given cs : List Char) : List Char × List Char :=
  match cut? ':' cs with
  | some (c :: rest, tail) =>
    if c.isAlpha && rest.all isSchemeChar then (lower (c :: rest), tail) else (given, cs)
  | _ => (given, cs)

/-- Ends an authority. -/
def endsAuthority (c : Char) : Bool := c == '/' || c == '?' || c == '#'

/-- The authority after two slashes, and the rest. -/
def splitAuthority : List Char → Except Fault (List Char × List Char)
  | '/' :: '/' :: rest =>
    let authority := rest.takeWhile (!endsAuthority ·)
    (checkBrackets authority).map fun _ => (authority, rest.dropWhile (!endsAuthority ·))
  | cs => .ok ([], cs)

/-- The path and its parameters: what follows the first semicolon of the last segment. -/
def splitParameters (scheme path : List Char) : List Char × List Char :=
  if isIn parameterSchemes scheme then
    let lastSegment := (path.reverse.takeWhile (· != '/')).reverse
    match cut? ';' lastSegment with
    | some (segment, parameters) =>
      (path.take (path.length - lastSegment.length) ++ segment, parameters)
    | none => (path, [])
  else (path, [])

/-- The text without leading controls and spaces, and without tabs and line breaks. -/
def clean (cs : List Char) : List Char :=
  (cs.dropWhile (·.toNat ≤ 32)).filter fun c => !(c == '\t' || c == '\r' || c == '\n')

/-- The parts of a reference, with the scheme that holds where it has none. -/
def Reference.ofText (given : List Char) (text : List Char) : Except Fault Reference := do
  let (scheme, rest) := splitScheme given (clean text)
  let (authority, rest) ← splitAuthority rest
  let (rest, fragment) := (cut? '#' rest).getD (rest, [])
  let (rest, query) := (cut? '?' rest).getD (rest, [])
  checkDelimiters authority
  let (path, parameters) := splitParameters scheme rest
  return { scheme, authority, path, parameters, query, fragment }

/-- A part behind its delimiter, nothing for an empty part. -/
def delimited (delimiter : Char) (part : List Char) : List Char :=
  if part.isEmpty then [] else delimiter :: part

/-- The reference as text. -/
def Reference.text (r : Reference) : List Char :=
  let path := r.path ++ delimited ';' r.parameters
  let hier :=
    if !r.authority.isEmpty || (!r.scheme.isEmpty && isIn authoritySchemes r.scheme)
        || (after? "//".toList path).isSome then
      let rooted := if path.isEmpty || path.head? == some '/' then path else '/' :: path
      "//".toList ++ r.authority ++ rooted
    else path
  (if r.scheme.isEmpty then [] else r.scheme ++ [':']) ++ hier ++ delimited '?' r.query
    ++ delimited '#' r.fragment

/-! ## 3. Joining -/

/-- Removes dot segments; `kept` holds the segments before, reversed. -/
def removeDots (kept : List (List Char)) : List (List Char) → List (List Char)
  | [] => kept.reverse
  | segment :: rest =>
    if segment = ['.', '.'] then removeDots kept.tail rest
    else if segment = ['.'] then removeDots kept rest
    else removeDots (segment :: kept) rest

/-- The segments without empty ones between the first and the last. -/
def dropInnerEmpty : List (List Char) → List (List Char)
  | [] => []
  | [s] => [s]
  | first :: rest => first :: (rest.dropLast.filter (!·.isEmpty)) ++ rest.getLast?.toList

/-- The segments of a base path up to its last slash. -/
def baseSegments (path : List Char) : List (List Char) :=
  let parts := splitOn '/' path
  if parts.getLast? = some [] then parts else parts.dropLast

/-- A path resolved against the path of a base. -/
def joinPath (base path : List Char) : List Char :=
  let segments :=
    if path.head? = some '/' then splitOn '/' path
    else dropInnerEmpty (baseSegments base ++ splitOn '/' path)
  let resolved := removeDots [] segments
  let closed :=
    if segments.getLast? = some ['.'] ∨ segments.getLast? = some ['.', '.'] then resolved ++ [[]]
    else resolved
  let joined := joinWith ['/'] closed
  if joined.isEmpty then ['/'] else joined

/-- The reference `text` resolved against the reference `base`. -/
def joinTo (b r : Reference) (text : List Char) : List Char :=
  if r.scheme ≠ b.scheme ∨ isIn relativeSchemes r.scheme = false then text
  else
    let hasAuthority := isIn authoritySchemes r.scheme
    if hasAuthority && !r.authority.isEmpty then r.text
    else
      let authority := if hasAuthority then b.authority else r.authority
      if r.path.isEmpty && r.parameters.isEmpty then
        { r with
          authority := authority
          path := b.path
          parameters := b.parameters
          query := if r.query.isEmpty then b.query else r.query : Reference }.text
      else { r with authority := authority, path := joinPath b.path r.path : Reference }.text

/-- A URL reference resolved against a base. -/
def join (base text : List Char) : Except Fault (List Char) :=
  if base.isEmpty then .ok text
  else if text.isEmpty then .ok base
  else do
    let b ← Reference.ofText [] base
    let r ← Reference.ofText b.scheme text
    return joinTo b r text

end StepRunner.Url
