import TeamAccess.Principal
import TeamAccess.Uuid

/-! # Rows and tables

Entities carry an identifier; edges join two identifiers. Each partition of the principals has its
own membership table, each partition of the users its own grant table.
-/

namespace TeamAccess

/-- A permission, known by its name. -/
structure Permission where
  id : Uuid
  name : String
  description : Option String
  deriving DecidableEq, Repr

/-- A team. -/
structure Team where
  id : Uuid
  name : String
  deriving DecidableEq, Repr

/-- What is kept of a user beside the username; it fixes the partition. -/
inductive Profile where
  | managed (fullname email : Option String) (suspended : Bool)
  | ldap (dn : Option String)
  | oidc (subjectIdentifier email : Option String)
  deriving DecidableEq, Repr

/-- The partition of a profile. -/
def Profile.kind : Profile → UserKind
  | .managed .. => .managed
  | .ldap .. => .ldap
  | .oidc .. => .oidc

/-- A user. -/
structure User where
  id : Uuid
  username : String
  profile : Profile
  deriving DecidableEq, Repr

/-- The partition of a user. -/
def User.kind (u : User) : UserKind := u.profile.kind

/-- A machine credential. -/
structure ApiKey where
  id : Uuid
  key : String
  deriving DecidableEq, Repr

/-- The record of a group that a provider asserts. -/
structure OidcGroup where
  id : Uuid
  name : String
  deriving DecidableEq, Repr

/-- A team reached from a directory group. -/
structure LdapMapping where
  team : Uuid
  dn : String
  deriving DecidableEq, Repr

/-- A team reached from a provider group. -/
structure OidcMapping where
  team : Uuid
  group : Uuid
  deriving DecidableEq, Repr

/-- A principal belongs to a team. -/
structure Membership where
  kind : PrincipalKind
  principal : Uuid
  team : Uuid
  deriving DecidableEq, Repr

/-- A user holds a permission directly. -/
structure UserGrant where
  kind : UserKind
  user : Uuid
  permission : Uuid
  deriving DecidableEq, Repr

/-- A team holds a permission. -/
structure TeamGrant where
  team : Uuid
  permission : Uuid
  deriving DecidableEq, Repr

/-- A table of the store. -/
inductive Table where
  | permissions
  | teams
  | users (kind : UserKind)
  | apiKeys
  | oidcGroups
  | ldapMappings
  | oidcMappings
  | memberships (kind : PrincipalKind)
  | userGrants (kind : UserKind)
  | teamGrants
  deriving DecidableEq, Repr

namespace Table

/-- The name of a user table. -/
def userTable : UserKind → String
  | .managed => "managed_users"
  | .ldap => "ldap_users"
  | .oidc => "oidc_users"

/-- The name of a table. -/
def name : Table → String
  | .permissions => "permissions"
  | .teams => "teams"
  | .users k => userTable k
  | .apiKeys => "api_keys"
  | .oidcGroups => "oidc_groups"
  | .ldapMappings => "mapped_ldap_groups"
  | .oidcMappings => "mapped_oidc_groups"
  | .memberships (.user k) => userTable k ++ "_teams"
  | .memberships .apiKey => "api_keys_teams"
  | .userGrants k => userTable k ++ "_permissions"
  | .teamGrants => "teams_permissions"

/-- All tables. -/
def all : List Table :=
  [.permissions, .teams, .apiKeys, .oidcGroups, .ldapMappings, .oidcMappings, .teamGrants]
    ++ UserKind.all.map .users ++ PrincipalKind.all.map .memberships
    ++ UserKind.all.map .userGrants

/-- The table of a name. -/
def ofName? (s : String) : Option Table := all.find? (·.name == s)

end Table

end TeamAccess
