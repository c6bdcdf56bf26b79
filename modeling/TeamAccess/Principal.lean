/-! # Kinds of principals

Users are kept in three partitions by where they sign in; API keys are principals too. Directory and
provider users take their teams from the groups of one of two sources.
-/

namespace TeamAccess

/-- The partition of a user. -/
inductive UserKind where
  | managed
  | ldap
  | oidc
  deriving DecidableEq, Repr

/-- The kind of a principal. -/
inductive PrincipalKind where
  | user (kind : UserKind)
  | apiKey
  deriving DecidableEq, Repr

/-- Where external groups come from. -/
inductive GroupSource where
  | ldap
  | oidc
  deriving DecidableEq, Repr

namespace UserKind

/-- All partitions, in the order in which they are searched for a username. -/
def all : List UserKind := [.managed, .ldap, .oidc]

/-- The text of a kind in tokens, addresses and logs. -/
def text : UserKind → String
  | .managed => "MANAGED"
  | .ldap => "LDAP"
  | .oidc => "OIDC"

/-- The source that a user's teams are synchronized from. -/
def source? : UserKind → Option GroupSource
  | .managed => none
  | .ldap => some .ldap
  | .oidc => some .oidc

end UserKind

namespace PrincipalKind

/-- All kinds. -/
def all : List PrincipalKind := [.user .managed, .user .ldap, .user .oidc, .apiKey]

/-- The text of a kind in tokens, addresses and logs. -/
def text : PrincipalKind → String
  | .user k => k.text
  | .apiKey => "API_KEY"

/-- The kind that a text names. -/
def ofText? : String → Option PrincipalKind
  | "MANAGED" => some (.user .managed)
  | "LDAP" => some (.user .ldap)
  | "OIDC" => some (.user .oidc)
  | "API_KEY" => some .apiKey
  | _ => none

theorem ofText?_text (k : PrincipalKind) : ofText? k.text = some k := by
  rcases k with (_ | _ | _) | _ <;> rfl

/-- The partition of a user kind. -/
def userKind? : PrincipalKind → Option UserKind
  | .user k => some k
  | .apiKey => none

end PrincipalKind

namespace GroupSource

/-- The text of a source in logs. -/
def text : GroupSource → String
  | .ldap => "LDAP"
  | .oidc => "OIDC"

/-- The source that a text names. -/
def ofText? : String → Option GroupSource
  | "LDAP" => some .ldap
  | "OIDC" => some .oidc
  | _ => none

theorem ofText?_text (s : GroupSource) : ofText? s.text = some s := by
  cases s <;> rfl

end GroupSource

end TeamAccess
