import TeamAccess.Store.Basic
import TeamAccess.Text.Form
import TeamAccess.Text.Numeral
import TeamAccess.Text.Quoted

/-! # Database URLs

A URL names a driver, credentials, a host, a port, a database and options. Credentials and the
database are percent-encoded; a user name ends at the first colon or slash, a password at the first
at sign. What follows the last part that is recognized is not read.
-/

namespace TeamAccess

/-- A database URL. The options of one name are kept together. -/
structure DatabaseUrl where
  driver : String
  username : Option String
  password : Option String
  host : Option String
  port : Option Int
  database : Option String
  options : List (String × List String)
  deriving DecidableEq, Repr

namespace DatabaseUrl

/-- Why a text is no database URL. -/
inductive UrlError where
  | shape
  | port (text : String)
  | emptyPort
  deriving DecidableEq, Repr

/-- The cause in words. -/
def UrlError.message : UrlError → String
  | .shape => "Could not parse SQLAlchemy URL from given URL string"
  | .port text => "invalid literal for int() with base 10: " ++ Text.Quoted.quote text
  | .emptyPort => "Port argument must be an integer or None"

/-- A character of a driver. -/
def isDriver (c : Char) : Bool := Text.isWord c || c = '+'

/-- A character of a user name as it is written. -/
def isName (c : Char) : Bool := c != ':' && c != '/'

/-- A character of a host without brackets. -/
def isHost (c : Char) : Bool := c != '/' && c != ':' && c != '?'

/-- A character of a host in brackets or of a port: it begins neither database nor options. -/
def isInner (c : Char) : Bool := c != '/' && c != '?'

/-- The driver of a URL and the text after it. -/
def readDriver (text : List Char) : Except UrlError (String × List Char) :=
  let name := text.takeWhile isDriver
  match text.dropWhile isDriver with
  | ':' :: '/' :: '/' :: rest =>
    if name.isEmpty then .error .shape else .ok (String.ofList name, rest)
  | _ => .error .shape

/-- The user name, the password and the text after them. -/
def readCredentials (text : List Char) : Option (String × Option String) × List Char :=
  let stretch := text.takeWhile isName
  let decode (cs : List Char) := String.ofList (Text.Percent.decode cs)
  let named :=
    match Text.splitLast? '@' stretch with
    | some (name, rest) => (some (decode name, none), rest ++ text.dropWhile isName)
    | none => (none, text)
  match text.dropWhile isName with
  | ':' :: rest =>
    match Text.splitFirst? '@' rest with
    | some (password, rest) => (some (decode stretch, some (decode password)), rest)
    | none => named
  | _ => named

/-- The host and the text after it. -/
def readHost (text : List Char) : Option String × List Char :=
  let plain :=
    let host := text.takeWhile isHost
    (if host.isEmpty then none else some (String.ofList host), text.dropWhile isHost)
  match text with
  | '[' :: rest =>
    match Text.splitLast? ']' (rest.takeWhile isInner) with
    | some (host, after) =>
      if host.isEmpty then plain
      else (some (String.ofList host), after ++ rest.dropWhile isInner)
    | none => plain
  | _ => plain

/-- The port and the text after it. -/
def readPort (text : List Char) : Except UrlError (Option Int × List Char) :=
  match text with
  | ':' :: rest =>
    let digits := String.ofList (rest.takeWhile isInner)
    if digits = "" then .error .emptyPort
    else
      match Text.Numeral.liberal? digits with
      | some n => .ok (some n, rest.dropWhile isInner)
      | none => .error (.port digits)
  | _ => .ok (none, text)

/-- The database and the text after it. -/
def readDatabase (text : List Char) : Option String × List Char :=
  match text with
  | '/' :: rest =>
    (some (String.ofList (Text.Percent.decode (rest.takeWhile (· != '?')))),
      rest.dropWhile (· != '?'))
  | _ => (none, text)

/-- Adds a value to the options. -/
def addOption (name value : String) :
    List (String × List String) → List (String × List String)
  | [] => [(name, [value])]
  | (n, values) :: rest =>
    if n = name then (n, values ++ [value]) :: rest else (n, values) :: addOption name value rest

/-- The options of a URL, those without a value left out. -/
def readOptions (text : List Char) : List (String × List String) :=
  match text with
  | '?' :: rest =>
    (Text.Form.filledPairs (rest.takeWhile (· != '\n'))).foldl (fun o p => addOption p.1 p.2 o) []
  | _ => []

/-- The URL that a text spells. -/
def parse (text : String) : Except UrlError DatabaseUrl := do
  let (driver, rest) ← readDriver text.toList
  let (credentials, rest) := readCredentials rest
  let (host, rest) := readHost rest
  let (port, rest) ← readPort rest
  let (database, rest) := readDatabase rest
  return ⟨driver, credentials.map (·.1), credentials.bind (·.2), host, port, database,
    readOptions rest⟩

/-- The credentials as they are written, with the password in clear. -/
def renderCredentials (u : DatabaseUrl) : String :=
  let encode := Text.Percent.encodeString " +"
  match u.username, u.password with
  | none, _ => ""
  | some name, none => encode name ++ "@"
  | some name, some password => encode name ++ ":" ++ encode password ++ "@"

/-- The host as it is written, in brackets if it holds a colon. -/
def renderHost (host : String) : String := if host.contains ':' then s!"[{host}]" else host

/-- The options as they are written, by name. -/
def renderOptions (options : List (String × List String)) : String :=
  let pairs := (sortedBy (·.1) options).flatMap fun (name, values) =>
    values.map fun value => Text.Form.encode name ++ "=" ++ Text.Form.encode value
  if pairs.isEmpty then "" else "?" ++ String.intercalate "&" pairs

/-- The text of a URL, with the password in clear. -/
def render (u : DatabaseUrl) : String :=
  u.driver ++ "://" ++ u.renderCredentials ++ (u.host.map renderHost).getD ""
    ++ (u.port.map fun n => s!":{n}").getD ""
    ++ (u.database.map fun d => "/" ++ Text.Percent.encodeString " +/" d).getD ""
    ++ renderOptions u.options

end DatabaseUrl

end TeamAccess
