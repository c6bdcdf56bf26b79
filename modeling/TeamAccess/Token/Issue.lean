import TeamAccess.Json.Printer
import TeamAccess.Principal
import TeamAccess.Text.Base64Url
import TeamAccess.Token.Basic

/-! # Issuing tokens

A token is a header, the claims and a signature over both, in URL-safe base64 and joined by dots.
Times are whole microseconds since 1970; a claim holds the whole seconds.
-/

namespace TeamAccess.Token

/-- Why no token is issued. -/
inductive IssueError where
  | apiKeyKind
  | dateRange
  | lifetimeRange (days : Int)
  | unknownAlgorithm
  | keyPairAlgorithm (name : String)
  | key (fault : KeyFault)
  deriving DecidableEq, Repr

/-- The cause in words. -/
def IssueError.message : IssueError → String
  | .apiKeyKind => "API keys authenticate with the X-Api-Key header, not tokens"
  | .dateRange => "date value out of range"
  | .lifetimeRange days => s!"days={days}; must have magnitude <= 999999999"
  | .unknownAlgorithm => "Algorithm not supported"
  | .keyPairAlgorithm name =>
    s!"Algorithm '{name}' could not be found. Do you have cryptography installed?"
  | .key fault => fault.message

/-- Microseconds in a second. -/
def second : Int := 1000000

/-- Microseconds in a day. -/
def day : Int := 86400 * second

/-- The microseconds from the first instant of the year 1 to the last of the year 9999. -/
def isDate (time : Int) : Bool :=
  -62135596800 * second ≤ time && time < 253402300800 * second

/-- The whole seconds of a time, the fraction cut off. -/
def wholeSeconds (time : Int) : Int := time.tdiv second

/-- The claims of a token. -/
def claims (cfg : Config) (subject : String) (kind : UserKind) (now ttl : Int) :
    List (String × Json) :=
  [("iss", .str cfg.issuer), ("aud", .str cfg.audience), ("sub", .str subject),
    ("kind", .str kind.text), ("iat", .int (wholeSeconds now)),
    ("exp", .int (wholeSeconds (now + ttl)))]

/-- The header of a token. -/
def header (algorithm : String) : Json := .obj [("alg", .str algorithm), ("typ", .str "JWT")]

/-- A JSON value as a segment of a token. -/
def segment (j : Json) : List Char :=
  Text.Base64Url.encode (Text.Utf8.encode (j.print .compact))

/-- The part of a token that is signed. -/
def signingInput (algorithm : String) (payload : List (String × Json)) : List Char :=
  segment (header algorithm) ++ '.' :: segment (.obj payload)

/-- The algorithm that the settings name. -/
def algorithmOf (cfg : Config) : Except IssueError Algorithm :=
  match Algorithm.ofName? cfg.algorithm with
  | some a => .ok a
  | none =>
    if cfg.algorithm ∈ keyPairAlgorithms then .error (.keyPairAlgorithm cfg.algorithm)
    else .error .unknownAlgorithm

/-- A signed token that carries the given claims. -/
def signClaims (cfg : Config) (payload : List (String × Json)) : Except IssueError String := do
  let algorithm ← algorithmOf cfg
  (checkKey algorithm cfg.secret).mapError .key
  let input := signingInput cfg.algorithm payload
  return String.ofList (input ++ '.' :: Text.Base64Url.encode (sign algorithm cfg.secret input))

/-- A token for a principal, valid from `now` for `ttl` microseconds. -/
def issue (cfg : Config) (subject : String) (kind : PrincipalKind) (now ttl : Int) :
    Except IssueError String :=
  match kind with
  | .apiKey => .error .apiKeyKind
  | .user kind =>
    if 999999999 < (ttl.fdiv day).natAbs then .error (.lifetimeRange (ttl.fdiv day))
    else if !isDate (now + ttl) then .error .dateRange
    else signClaims cfg (claims cfg subject kind now ttl)

end TeamAccess.Token
