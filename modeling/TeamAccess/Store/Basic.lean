import TeamAccess.Store.Schema

/-! # The store and what it answers

A store is the rows of its tables and the tables that are missing. Queries are functions of the
rows; every list they give is in the order of the names.
-/

namespace TeamAccess

/-- The rows of all tables. -/
structure Store where
  permissions : List Permission := []
  teams : List Team := []
  users : List User := []
  apiKeys : List ApiKey := []
  oidcGroups : List OidcGroup := []
  ldapMappings : List LdapMapping := []
  oidcMappings : List OidcMapping := []
  memberships : List Membership := []
  userGrants : List UserGrant := []
  teamGrants : List TeamGrant := []
  missing : List Table := []
  deriving DecidableEq, Repr

/-- Sorts by a name, in the order of code points. -/
def sortedBy {α : Type} (name : α → String) (xs : List α) : List α :=
  xs.mergeSort fun a b => decide (name a ≤ name b)

namespace Store

/-- The store with all tables and no rows. -/
def empty : Store := {}

/-- Whether all tables exist. -/
def isComplete (s : Store) : Bool := s.missing.isEmpty

/-- The permission of a name. -/
def permission? (s : Store) (name : String) : Option Permission :=
  s.permissions.find? (·.name = name)

/-- The team of a name. -/
def team? (s : Store) (name : String) : Option Team := s.teams.find? (·.name = name)

/-- The team of an identifier. -/
def teamById? (s : Store) (id : Uuid) : Option Team := s.teams.find? (·.id = id)

/-- The user of a partition and a username. -/
def user? (s : Store) (kind : UserKind) (username : String) : Option User :=
  s.users.find? fun u => u.kind = kind ∧ u.username = username

/-- The user of a partition and an identifier. -/
def userById? (s : Store) (kind : UserKind) (id : Uuid) : Option User :=
  s.users.find? fun u => u.kind = kind ∧ u.id = id

/-- The API key of a text. -/
def apiKey? (s : Store) (key : String) : Option ApiKey := s.apiKeys.find? (·.key = key)

/-- The API key of an identifier. -/
def apiKeyById? (s : Store) (id : Uuid) : Option ApiKey := s.apiKeys.find? (·.id = id)

/-- The provider group of a name. -/
def oidcGroup? (s : Store) (name : String) : Option OidcGroup :=
  s.oidcGroups.find? (·.name = name)

/-- The permissions by name. -/
def allPermissions (s : Store) : List Permission := sortedBy (·.name) s.permissions

/-- The teams by name. -/
def allTeams (s : Store) : List Team := sortedBy (·.name) s.teams

/-- The users of a partition by username. -/
def allUsers (s : Store) (kind : UserKind) : List User :=
  sortedBy (·.username) (s.users.filter (·.kind = kind))

/-- The API keys by text. -/
def allApiKeys (s : Store) : List ApiKey := sortedBy (·.key) s.apiKeys

/-- The provider groups by name. -/
def allOidcGroups (s : Store) : List OidcGroup := sortedBy (·.name) s.oidcGroups

/-- The teams of a principal by name. -/
def teamsOf (s : Store) (kind : PrincipalKind) (id : Uuid) : List Team :=
  sortedBy (·.name) (s.teams.filter fun t => ⟨kind, id, t.id⟩ ∈ s.memberships)

/-- The permissions that a user holds directly, by name. -/
def directPermissions (s : Store) (kind : UserKind) (id : Uuid) : List Permission :=
  sortedBy (·.name) (s.permissions.filter fun p => ⟨kind, id, p.id⟩ ∈ s.userGrants)

/-- The permissions of a team by name. -/
def teamPermissions (s : Store) (id : Uuid) : List Permission :=
  sortedBy (·.name) (s.permissions.filter fun p => ⟨id, p.id⟩ ∈ s.teamGrants)

/-- Whether a user holds a permission of this name directly. -/
def userHolds (s : Store) (kind : UserKind) (id : Uuid) (name : String) : Bool :=
  s.permissions.any fun p => p.name = name ∧ ⟨kind, id, p.id⟩ ∈ s.userGrants

/-- Whether a team holds a permission of this name. -/
def teamHolds (s : Store) (id : Uuid) (name : String) : Bool :=
  s.permissions.any fun p => p.name = name ∧ ⟨id, p.id⟩ ∈ s.teamGrants

/-- The teams reached from a directory group, by name. -/
def teamsForDn (s : Store) (dn : String) : List Team :=
  sortedBy (·.name) (s.teams.filter fun t => ⟨t.id, dn⟩ ∈ s.ldapMappings)

/-- The teams reached from a provider group, by name. -/
def teamsForOidcGroup (s : Store) (group : Uuid) : List Team :=
  sortedBy (·.name) (s.teams.filter fun t => ⟨t.id, group⟩ ∈ s.oidcMappings)

/-- The directory groups that reach a team, sorted. -/
def dnsForTeam (s : Store) (team : Uuid) : List String :=
  sortedBy id ((s.ldapMappings.filter (·.team = team)).map (·.dn))

/-- The names of the provider groups that reach a team, sorted. -/
def oidcNamesForTeam (s : Store) (team : Uuid) : List String :=
  sortedBy id ((s.oidcGroups.filter fun g => ⟨team, g.id⟩ ∈ s.oidcMappings).map (·.name))

end Store

end TeamAccess
