import TeamAccess.Json.Parser
import TeamAccess.Text.Base64Url
import TeamAccess.Text.Numeral
import TeamAccess.Text.Split
import TeamAccess.Token.Issue

/-! # Checking tokens

A token is taken apart, its signature checked, and then its claims: the six required ones have to be
there, the times have to include the present, and issuer and audience have to be those of the
settings. The first check that fails is reported.
-/

namespace TeamAccess.Token

/-- A part of a token. -/
inductive Segment where
  | header
  | payload
  | signature
  deriving DecidableEq, Repr

/-- The name of a part. -/
def Segment.name : Segment → String
  | .header => "header"
  | .payload => "payload"
  | .signature => "crypto"

/-- A claim that holds a time. -/
inductive TimeClaim where
  | issuedAt
  | notBefore
  | expires
  deriving DecidableEq, Repr

namespace TimeClaim

/-- The name of the claim. -/
def name : TimeClaim → String
  | .issuedAt => "iat"
  | .notBefore => "nbf"
  | .expires => "exp"

/-- The claim in words. -/
def title : TimeClaim → String
  | .issuedAt => "Issued At"
  | .notBefore => "Not Before"
  | .expires => "Expiration Time"

end TimeClaim

/-- Why a token is rejected. -/
inductive Rejection where
  | segments
  | padding (part : Segment)
  | notJson (part : Segment) (error : Json.ByteError)
  | notObject (part : Segment)
  | payloadNotDetached
  | keyIdNotText
  | criticalNotList
  | criticalNotText
  | criticalUnknown (name : String)
  | criticalAbsent (name : String)
  | detachedPayload
  | noAlgorithm
  | algorithmNotAllowed
  | algorithmUnknown
  | signature
  | missing (claim : String)
  | notInteger (claim : TimeClaim)
  | notYetValid (claim : TimeClaim)
  | expired
  | issuerNotText
  | issuer
  | audienceFormat
  | audience
  | subjectNotText
  | tokenIdNotText

/-- The cause in words. -/
def Rejection.message : Rejection → String
  | .segments => "Not enough segments"
  | .padding part => s!"Invalid {part.name} padding"
  | .notJson part error => s!"Invalid {part.name} string: {error.message}"
  | .notObject part => s!"Invalid {part.name} string: must be a json object"
  | .payloadNotDetached => "Payload segment must be empty when 'b64' is false."
  | .keyIdNotText => "Key ID header parameter must be a string"
  | .criticalNotList => "Invalid 'crit' header: must be a non-empty list"
  | .criticalNotText => "Invalid 'crit' header: values must be strings"
  | .criticalUnknown name => s!"Unsupported critical extension: {name}"
  | .criticalAbsent name => s!"Critical extension '{name}' is missing from headers"
  | .detachedPayload => "It is required that you pass in a value for the \"detached_payload\" "
      ++ "argument to decode a message having the b64 header set to false."
  | .noAlgorithm => "Algorithm not specified"
  | .algorithmNotAllowed => "The specified alg value is not allowed"
  | .algorithmUnknown => "Algorithm not supported"
  | .signature => "Signature verification failed"
  | .missing claim => s!"Token is missing the \"{claim}\" claim"
  | .notInteger claim => s!"{claim.title} claim ({claim.name}) must be an integer."
  | .notYetValid claim => s!"The token is not yet valid ({claim.name})"
  | .expired => "Signature has expired"
  | .issuerNotText => "Payload Issuer (iss) must be a string"
  | .issuer => "Invalid issuer"
  | .audienceFormat => "Invalid claim format in token"
  | .audience => "Audience doesn't match"
  | .subjectNotText => "Subject must be a string"
  | .tokenIdNotText => "JWT ID must be a string"

/-- Why a token is not accepted: it is rejected, or the settings hold no usable key. -/
inductive VerifyError where
  | rejected (reason : Rejection)
  | key (fault : KeyFault)

/-- The members of a JSON object. -/
abbrev Members := List (String × Json)

/-- The bytes of a segment. -/
def decodeSegment (part : Segment) (text : List Char) : Except Rejection (List UInt8) :=
  match Text.Base64Url.decode? text with
  | some bytes => .ok bytes
  | none => .error (.padding part)

/-- The object that bytes spell. -/
def decodeObject (part : Segment) (bytes : List UInt8) : Except Rejection Members :=
  match Json.parseBytes bytes with
  | .error e => .error (.notJson part e)
  | .ok (.obj members) => .ok members
  | .ok _ => .error (.notObject part)

/-- The parts of a token, taken apart but not checked. -/
structure Parts where
  signed : List Char
  header : Members
  payload : List UInt8
  signature : List UInt8

/-- Whether a header says that the payload is not encoded. -/
def isDetached (header : Members) : Bool :=
  match Json.member? "b64" header with
  | some (.bool false) => true
  | _ => false

/-- Takes a token apart. -/
def split (token : String) : Except Rejection Parts := do
  let some (signed, signatureText) := Text.splitLast? '.' token.toList | throw .segments
  let some (headerText, payloadText) := Text.splitFirst? '.' signed | throw .segments
  let header ← decodeObject .header (← decodeSegment .header headerText)
  if isDetached header && !payloadText.isEmpty then throw .payloadNotDetached
  let payload ← decodeSegment .payload payloadText
  let signature ← decodeSegment .signature signatureText
  return ⟨signed, header, payload, signature⟩

/-- Checks the names of the extensions that a token declares critical; only `b64` is known. -/
def checkExtensions (header : Members) : List Json → Except Rejection Unit
  | [] => .ok ()
  | .str name :: rest =>
    if name != "b64" then .error (.criticalUnknown name)
    else if (Json.member? name header).isNone then .error (.criticalAbsent name)
    else checkExtensions header rest
  | _ :: _ => .error .criticalNotText

/-- Checks the members of a header other than the algorithm. -/
def checkHeader (header : Members) : Except Rejection Unit := do
  match Json.member? "kid" header with
  | none | some (.str _) => pure ()
  | some _ => throw .keyIdNotText
  match Json.member? "crit" header with
  | none => pure ()
  | some (.arr (item :: rest)) => checkExtensions header (item :: rest)
  | some _ => throw .criticalNotList
  if isDetached header then throw .detachedPayload

/-- The algorithm of a header, which has to be the one of the settings. -/
def checkAlgorithm (cfg : Config) (header : Members) : Except Rejection Algorithm :=
  match Json.member? "alg" header with
  | none => .error .noAlgorithm
  | some (.str name) =>
    if name = "" || name != cfg.algorithm then .error .algorithmNotAllowed
    else
      match Algorithm.ofName? name with
      | none => .error .algorithmUnknown
      | some a => .ok a
  | some _ => .error .algorithmNotAllowed

/-- Whether a signature is the one of the settings' key. An unsigned token has no valid one. -/
def signatureFits (algorithm : Algorithm) (secret : String) (parts : Parts) : Bool :=
  match algorithm with
  | .unsigned => false
  | .hmac _ => sign algorithm secret parts.signed == parts.signature

/-- The whole number that a value counts as: texts are read, fractions cut off. -/
def asInteger? : Json → Option Int
  | .int n => some n
  | .bool b => some (if b then 1 else 0)
  | .decimal d => d.nearest.map (·.truncate)
  | .str s => Text.Numeral.liberal? s
  | _ => none

/-- Checks a time claim that is there against a condition. -/
def checkTime (claim : TimeClaim) (failure : Rejection) (holds : Int → Bool) (payload : Members) :
    Except Rejection Unit :=
  match Json.member? claim.name payload with
  | none => .ok ()
  | some value =>
    match asInteger? value with
    | none => .error (.notInteger claim)
    | some t => if holds t then .ok () else .error failure

/-- The claims that every token has. -/
def requiredClaims : List String := ["exp", "iat", "iss", "aud", "sub", "kind"]

/-- Whether a claim is there and not null. -/
def hasClaim (payload : Members) (name : String) : Bool :=
  match Json.member? name payload with
  | none | some .null => false
  | some _ => true

/-- Checks that no required claim is missing. -/
def checkRequired (payload : Members) : Except Rejection Unit :=
  match requiredClaims.find? (!hasClaim payload ·) with
  | some name => .error (.missing name)
  | none => .ok ()

/-- Checks the issuer. -/
def checkIssuer (cfg : Config) (payload : Members) : Except Rejection Unit :=
  match Json.member? "iss" payload with
  | none => .error (.missing "iss")
  | some (.str issuer) => if issuer = cfg.issuer then .ok () else .error .issuer
  | some _ => .error .issuerNotText

/-- The audience of a token as a list of texts. -/
def audienceOf : Json → Except Rejection (List String)
  | .str s => .ok [s]
  | .arr items => items.mapM fun
    | .str s => .ok s
    | _ => .error .audienceFormat
  | _ => .error .audienceFormat

/-- Checks the audience. -/
def checkAudience (cfg : Config) (payload : Members) : Except Rejection Unit :=
  match Json.member? "aud" payload with
  | none => .error (.missing "aud")
  | some value =>
    if !value.truthy then .error (.missing "aud")
    else do
      let names ← audienceOf value
      if cfg.audience ∈ names then return () else throw .audience

/-- Checks that a claim is a text if it is there. -/
def checkText (name : String) (failure : Rejection) (payload : Members) : Except Rejection Unit :=
  match Json.member? name payload with
  | none | some (.str _) => .ok ()
  | some _ => .error failure

/-- Checks the claims of a token at a time in microseconds. -/
def checkClaims (cfg : Config) (now : Int) (payload : Members) : Except Rejection Unit := do
  checkRequired payload
  checkTime .issuedAt (.notYetValid .issuedAt) (fun t => decide (t * second ≤ now)) payload
  checkTime .notBefore (.notYetValid .notBefore) (fun t => decide (t * second ≤ now)) payload
  checkTime .expires .expired (fun t => decide (now < t * second)) payload
  checkIssuer cfg payload
  checkAudience cfg payload
  checkText "sub" .subjectNotText payload
  checkText "jti" .tokenIdNotText payload

/-- Reports a rejection as the reason why a token is not accepted. -/
def rejecting {α : Type} (result : Except Rejection α) : Except VerifyError α :=
  result.mapError .rejected

/-- The claims of a token that is accepted at a time in microseconds. -/
def verify (cfg : Config) (now : Int) (token : String) : Except VerifyError Members := do
  let parts ← rejecting (split token)
  rejecting (checkHeader parts.header)
  let algorithm ← rejecting (checkAlgorithm cfg parts.header)
  (checkKey algorithm cfg.secret).mapError .key
  if !signatureFits algorithm cfg.secret parts then throw (.rejected .signature)
  let payload ← rejecting (decodeObject .payload parts.payload)
  rejecting (checkClaims cfg now payload)
  return payload

end TeamAccess.Token
