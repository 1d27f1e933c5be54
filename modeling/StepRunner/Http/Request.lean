import StepRunner.Text.LowerCase
import StepRunner.Url.Escape
import StepRunner.Url.Reference

/-!
# Requests and routes

A request has a method, a target (path and query), headers and a body. `Request.route` says what it is
about: `Route.ofSegments?` reads the path, whose escapes are undone first, and each route has one
method. A path with two slashes in a row is sent on to the one without, if that leads somewhere.
-/

namespace StepRunner.Http

open Text

/-- A request. -/
structure Request where
  method : String
  target : String
  headers : List (String × String) := []
  body : String := ""
  deriving DecidableEq, Repr, Inhabited

/-- What a path is about. -/
inductive Route where
  | health
  | runs
  | run (id : String)
  | cancel (id : String)
  | stream (id : String)
  /-- A file of the site. -/
  | asset
  deriving DecidableEq, Repr

namespace Route

/-- The route of a path's segments. -/
def ofSegments? : List String → Option Route
  | ["health"] => some .health
  | ["api", "runs"] => some .runs
  | ["api", "runs", id] => if id = "" then none else some (.run id)
  | ["api", "runs", id, "cancel"] => if id = "" then none else some (.cancel id)
  | ["api", "runs", id, "stream"] => if id = "" then none else some (.stream id)
  | "static" :: first :: _ => if first = "" then none else some .asset
  | _ => none

/-- The route of a path. -/
def ofPath? : List Char → Option Route
  | '/' :: rest => ofSegments? ((splitOn '/' rest).map String.ofList)
  | _ => none

/-- The method of a route. -/
def method : Route → String
  | .runs | .cancel _ => "POST"
  | _ => "GET"

/-- The route can be asked by a method: its own, that for its options, and that for the head of an
    answer where its own is to get something. -/
def allows (r : Route) (m : String) : Bool :=
  m == r.method || m == "OPTIONS" || (m == "HEAD" && r.method == "GET")

end Route

/-- Where a request leads. -/
inductive Destination where
  | found (route : Route)
  /-- To the same path without doubled slashes. -/
  | moved
  | wrongMethod
  | nowhere
  deriving DecidableEq, Repr

/-- The path with a slash for every two in a row. -/
def mergeSlashes : List Char → List Char
  | '/' :: '/' :: rest => '/' :: mergeSlashes rest
  | c :: rest => c :: mergeSlashes rest
  | [] => []

namespace Request

/-- The target before its fragment. -/
def reference (r : Request) : List Char := r.target.toList.takeWhile (· != '#')

/-- The path, its escapes undone. -/
def path (r : Request) : List Char := Url.unescape (r.reference.takeWhile (· != '?'))

/-- The query. -/
def query (r : Request) : List Char := (r.reference.dropWhile (· != '?')).drop 1

/-- Where the request leads. -/
def destination (r : Request) : Destination :=
  match Route.ofPath? r.path with
  | some route => if route.allows r.method then .found route else .wrongMethod
  | none =>
    match Route.ofPath? (mergeSlashes r.path) with
    | some route => if route.allows r.method then .moved else .wrongMethod
    | none => .nowhere

/-- The value of a header, in whatever case its name is written. -/
def header? (r : Request) (name : String) : Option String :=
  (r.headers.find? fun (k, _) => toLower k == toLower name).map (·.2)

/-- A text in a query, with spaces for plus signs and escapes undone. -/
def queryText (cs : List Char) : String :=
  String.ofList (Url.unescape (cs.map fun c => if c = '+' then ' ' else c))

/-- Name and value of a part of a query. -/
def queryPair (cs : List Char) : String × String :=
  match Url.cut? '=' cs with
  | some (name, value) => (queryText name, queryText value)
  | none => (queryText cs, "")

/-- The first value of a name in the query. -/
def parameter? (r : Request) (name : String) : Option String :=
  (((splitOn '&' r.query).filter (!·.isEmpty)).map queryPair).lookup name

/-- The type of the body, in lower case and without its parameters. -/
def contentType (r : Request) : String :=
  let given := ((r.header? "Content-Type").getD "").toList
  String.ofList (lower (trim (given.takeWhile (· != ';'))))

/-- The body is declared to be JSON. -/
def isJson (r : Request) : Bool :=
  let t := r.contentType
  t == "application/json" || (t.startsWith "application/" && t.endsWith "+json")

end Request

end StepRunner.Http
