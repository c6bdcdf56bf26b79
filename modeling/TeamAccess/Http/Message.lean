import TeamAccess.Failure
import TeamAccess.Text.Form

/-! # Requests and responses

A request is addressed to a path and a query. The path is percent-decoded as a whole before anything
looks at it, so that an encoded slash separates segments like a plain one.
-/

namespace TeamAccess.Http

/-- A request, with the time in microseconds at which it comes in and the identifier that it gets if
it brings none. -/
structure Request where
  method : String
  target : String
  headers : List (String × String)
  body : List UInt8
  now : Int
  fallbackId : String

/-- What a response carries. -/
inductive Content where
  | json (value : Json)
  | text (value : String)

/-- A response. -/
structure Response where
  status : Nat
  headers : List (String × String)
  content : Content

/-- A path as a part of an address, in which what would end it is encoded. -/
def addressPath (path : List Char) : List Char :=
  path.flatMap fun c =>
    if c = '?' then ['%', '3', 'F'] else if c = '#' then ['%', '2', '3'] else [c]

namespace Request

/-- The value of a header, whose name is compared without regard to case. -/
def header? (r : Request) (name : String) : Option String :=
  (r.headers.find? fun h => h.1.map Char.toLower = name).map (·.2)

/-- The part of the target before the first question mark, decoded. -/
def path (r : Request) : List Char :=
  Text.Percent.decode (r.target.toList.takeWhile (· != '?'))

/-- The part of the target after the first question mark. -/
def query (r : Request) : List Char := (r.target.toList.dropWhile (· != '?')).drop 1

/-- The value of a query parameter; of several values the last one counts. -/
def parameter? (r : Request) (name : String) : Option String :=
  ((Text.Form.pairs r.query).reverse.find? (·.1 = name)).map (·.2)

/-- The identifier of a request: the one that it brings, unless that is empty. -/
def id (r : Request) : String :=
  ((r.header? "x-request-id").filter (· != "")).getD r.fallbackId

/-- The path as logs show it: tabs and line breaks are left out. -/
def shownPath (r : Request) : List Char :=
  (addressPath r.path).filter fun c => c != '\t' && c != '\n' && c != '\r'

/-- Whether the body is declared to be JSON. -/
def declaresJson (r : Request) : Bool :=
  match r.header? "content-type" with
  | none => false
  | some value =>
    let media := Text.trim Text.isBlank (value.toList.takeWhile (· != ';'))
    let media := media.map Char.toLower
    match Text.splitFirst? '/' media with
    | some (main, sub) =>
      main == "application".toList && !sub.contains '/'
        && (sub == "json".toList || "+json".toList.isSuffixOf sub)
    | none => false

/-- The credentials of the bearer scheme. -/
def bearer? (r : Request) : Option String := do
  let value ← r.header? "authorization"
  let (scheme, credentials) ← Text.splitFirst? ' ' value.toList
  if scheme.map Char.toLower = "bearer".toList then
    return String.ofList (Text.trim Text.isBlank credentials)
  else none

/-- The API key of a request. -/
def apiKey? (r : Request) : Option String := r.header? "x-api-key"

end Request

end TeamAccess.Http
