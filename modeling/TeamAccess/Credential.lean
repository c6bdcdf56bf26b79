import TeamAccess.Token.Verify

/-! # Credentials

A caller names itself by an API key or by a token; an API key that is not empty wins. Users are
named by their username, API keys by their text.
-/

namespace TeamAccess

/-- Whom the credentials of a caller name. -/
structure CallerRef where
  kind : PrincipalKind
  identifier : String
  deriving DecidableEq, Repr

/-- Why credentials name nobody. -/
inductive CredentialError where
  | missing
  | rejected (reason : Token.Rejection)
  | subject
  | kind
  | key (fault : Token.KeyFault)

/-- The cause in words. -/
def CredentialError.message : CredentialError → String
  | .missing => "Missing credentials"
  | .rejected reason => s!"Invalid token: {reason.message}"
  | .subject => "Invalid token subject"
  | .kind => "Invalid token kind"
  | .key fault => fault.message

namespace CallerRef

/-- The caller that accepted claims name. -/
def ofClaims (claims : Token.Members) : Except CredentialError CallerRef :=
  let text (name : String) := ((Json.member? name claims).bind Json.text?).getD ""
  if text "sub" = "" then .error .subject
  else
    match PrincipalKind.ofText? (text "kind") with
    | some (.user k) => .ok ⟨.user k, text "sub"⟩
    | _ => .error .kind

/-- The caller that an API key or a bearer token names at a time in microseconds. -/
def ofCredentials (cfg : Token.Config) (now : Int) (token apiKey : Option String) :
    Except CredentialError CallerRef :=
  match apiKey.filter (· != ""), token.filter (· != "") with
  | some key, _ => .ok ⟨.apiKey, key⟩
  | none, none => .error .missing
  | none, some token =>
    match Token.verify cfg now token with
    | .error (.rejected reason) => .error (.rejected reason)
    | .error (.key fault) => .error (.key fault)
    | .ok claims => ofClaims claims

end CallerRef

end TeamAccess
