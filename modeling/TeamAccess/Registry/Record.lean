import TeamAccess.Mask
import TeamAccess.Session

/-! # Records and handles

A record is an entity read from the store together with its edges. A handle is what a caller hands
in for a principal or a team: tracked if the session has read it from the store, detached if it only
carries an identifier, or none, and a name.
-/

namespace TeamAccess

/-- A team with its permissions by name. -/
structure TeamRecord where
  team : Team
  permissions : List Permission
  deriving DecidableEq, Repr

/-- A user with the teams and the direct permissions by name. -/
structure UserRecord where
  user : User
  teams : List Team
  permissions : List Permission
  deriving DecidableEq, Repr

/-- An API key with its teams. -/
structure KeyRecord where
  apiKey : ApiKey
  teams : List Team
  deriving DecidableEq, Repr

/-- A principal read from the store. -/
inductive PrincipalRecord where
  | user (record : UserRecord)
  | apiKey (record : KeyRecord)
  deriving DecidableEq, Repr

/-- What is handed in for a principal; the name is the username or the text of the key. -/
structure PrincipalHandle where
  kind : PrincipalKind
  id : Option Uuid
  name : String
  tracked : Bool
  deriving DecidableEq, Repr

/-- What is handed in for a team. -/
structure TeamHandle where
  id : Option Uuid
  name : String
  tracked : Bool
  deriving DecidableEq, Repr

/-- The text of an identifier, or of its absence. -/
def idText : Option Uuid → String
  | none => "None"
  | some id => id.text

/-- The handle of a team that has been read. -/
def Team.handle (t : Team) : TeamHandle := ⟨some t.id, t.name, true⟩

/-- The handle of a user that has been read. -/
def User.handle (u : User) : PrincipalHandle := ⟨.user u.kind, some u.id, u.username, true⟩

/-- The handle of an API key that has been read. -/
def ApiKey.handle (k : ApiKey) : PrincipalHandle := ⟨.apiKey, some k.id, k.key, true⟩

namespace PrincipalRecord

/-- The handle of a principal that has been read. -/
def handle : PrincipalRecord → PrincipalHandle
  | .user r => r.user.handle
  | .apiKey r => r.apiKey.handle

/-- The kind of a principal. -/
def kind (r : PrincipalRecord) : PrincipalKind := r.handle.kind

/-- The identifier of a principal. -/
def id : PrincipalRecord → Uuid
  | .user r => r.user.id
  | .apiKey r => r.apiKey.id

/-- The teams of a principal by name. -/
def teams : PrincipalRecord → List Team
  | .user r => r.teams
  | .apiKey r => r.teams

end PrincipalRecord

namespace PrincipalHandle

/-- What a principal is called in messages and events: a user by the username, a key by its
identifier. -/
def identifier (p : PrincipalHandle) : String :=
  match p.kind with
  | .user _ => p.name
  | .apiKey => idText p.id

/-- What a principal is called where its holder or a security log reads it: a key is masked. -/
def display (p : PrincipalHandle) : String :=
  match p.kind with
  | .user _ => p.name
  | .apiKey => maskKey p.name

/-- The failure to find a principal. -/
def notFound (p : PrincipalHandle) : Failure :=
  .notFound .principal s!"{p.kind.text}:{p.identifier}"

end PrincipalHandle

/-- The failure to find a team by its identifier. -/
def TeamHandle.notFound (t : TeamHandle) : Failure := .notFound .team (idText t.id)

namespace Store

/-- A team with its permissions. -/
def teamRecord (s : Store) (t : Team) : TeamRecord := ⟨t, s.teamPermissions t.id⟩

/-- A user with its edges. -/
def userRecord (s : Store) (u : User) : UserRecord :=
  ⟨u, s.teamsOf (.user u.kind) u.id, s.directPermissions u.kind u.id⟩

/-- An API key with its teams. -/
def keyRecord (s : Store) (k : ApiKey) : KeyRecord := ⟨k, s.teamsOf .apiKey k.id⟩

end Store

namespace Action

/-- Requires what the permissions of teams are read from, unless there is no team. -/
def requireTeamGrants (teams : List Team) : Action Unit :=
  if teams.isEmpty then pure () else require [.teamGrants, .permissions]

/-- Reads the edges of teams. -/
def loadTeams (teams : List Team) : Action (List TeamRecord) := do
  requireTeamGrants teams
  ask fun s => teams.map s.teamRecord

/-- Reads the edges of users of one partition. -/
def loadUsers (kind : UserKind) (users : List User) : Action (List UserRecord) := do
  if users.isEmpty then return []
  require [.memberships (.user kind), .teams]
  requireTeamGrants (← ask fun s => users.flatMap fun u => s.teamsOf (.user kind) u.id)
  require [.userGrants kind, .permissions]
  ask fun s => users.map s.userRecord

/-- Reads the edges of API keys. -/
def loadKeys (keys : List ApiKey) : Action (List KeyRecord) := do
  if keys.isEmpty then return []
  require [.memberships .apiKey, .teams]
  requireTeamGrants (← ask fun s => keys.flatMap fun k => s.teamsOf .apiKey k.id)
  ask fun s => keys.map s.keyRecord

end Action

end TeamAccess
