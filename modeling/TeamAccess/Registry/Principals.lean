import TeamAccess.Registry.Teams

/-! # Principals

Users are looked up by partition and username, API keys by their text. Before the team set of a
principal is changed, the principal is read again by its identifier.
-/

namespace TeamAccess.Principals

open TeamAccess.Action

/-- The partition of a kind that has to be a user kind. -/
def userKind (kind : PrincipalKind) : Action UserKind :=
  match kind with
  | .user k => pure k
  | .apiKey => throw (.notAUserKind kind)

/-- Adds a user without teams and permissions. -/
def createUser (username : String) (profile : Profile) : Action UserRecord := do
  attempt .createUser
  let user ← change [.users profile.kind] (·.addUser username profile)
  return ⟨user, [], []⟩

/-- The user of a partition and a username. -/
def findUser? (kind : PrincipalKind) (username : String) : Action (Option UserRecord) := do
  attempt .findUser
  let k ← userKind kind
  let user ← query [.users k] (·.user? k username)
  return (← loadUsers k user.toList).head?

/-- The user of a username in the first of some partitions that has one. -/
def findIn? (username : String) : List UserKind → Action (Option UserRecord)
  | [] => return none
  | kind :: rest => do
    match ← findUser? (.user kind) username with
    | some user => return some user
    | none => findIn? username rest

/-- The user of a username, the partitions searched in order. -/
def findAnyUser? (username : String) : Action (Option UserRecord) := findIn? username UserKind.all

/-- The users of a partition by username. -/
def listUsers (kind : PrincipalKind) : Action (List UserRecord) := do
  attempt .listUsers
  let k ← userKind kind
  loadUsers k (← query [.users k] (·.allUsers k))

/-- Adds an API key with its first teams. -/
def createApiKey (key : String) (teams : List Team) : Action KeyRecord := do
  attempt .createApiKey
  require [.apiKeys]
  let apiKey ← change (if teams.isEmpty then [] else [.memberships .apiKey])
    (·.addApiKey key (teams.map (·.id)))
  return ⟨apiKey, teams⟩

/-- The API key of a text. -/
def findApiKey? (key : String) : Action (Option KeyRecord) := do
  attempt .findApiKey
  let apiKey ← query [.apiKeys] (·.apiKey? key)
  return (← loadKeys apiKey.toList).head?

/-- The principal of a kind and an identifier: a username, or the text of a key. -/
def resolve? (kind : PrincipalKind) (identifier : String) : Action (Option PrincipalRecord) := do
  match kind with
  | .apiKey => return (← findApiKey? identifier).map .apiKey
  | .user _ => return (← findUser? kind identifier).map .user

/-- The principal of a kind with an identifier. -/
def byId? (kind : PrincipalKind) (id : Uuid) : Action (Option PrincipalRecord) := do
  match kind with
  | .apiKey =>
    let apiKey ← query [.apiKeys] (·.apiKeyById? id)
    return (← loadKeys apiKey.toList).head?.map .apiKey
  | .user k =>
    let user ← query [.users k] (·.userById? k id)
    return (← loadUsers k user.toList).head?.map .user

/-- Reads a principal again by its identifier. -/
def fetch (principal : PrincipalHandle) : Action PrincipalRecord := do
  match principal.id with
  | none => throw principal.notFound
  | some id =>
    match ← byId? principal.kind id with
    | none => throw principal.notFound
    | some record => return record

/-- Reads a principal again. -/
def reload (principal : PrincipalHandle) : Action PrincipalRecord := do
  attempt .reload
  fetch principal

/-- Reads a principal again in order to change its teams. -/
def lock (principal : PrincipalHandle) : Action PrincipalRecord := do
  attempt .lock
  fetch principal

/-- Gives an API key another text. -/
def regenerateApiKey (principal : PrincipalHandle) (key : String) : Action KeyRecord := do
  attempt .regenerateApiKey
  match ← lock principal with
  | .apiKey record =>
    change [.apiKeys] (·.replaceApiKey record.apiKey.id key)
    return { record with apiKey := ⟨record.apiKey.id, key⟩ }
  | .user _ => throw principal.notFound

/-- The stored team that a handle names by its identifier. -/
def target (team : TeamHandle) : Action Team := do
  match team.id with
  | none => throw team.notFound
  | some id =>
    match ← Teams.get? id with
    | none => throw team.notFound
    | some record => return record.team

/-- Makes a principal a member of a team; the answer tells whether it was none. -/
def addToTeam (principal : PrincipalHandle) (team : TeamHandle) : Action Bool := do
  attempt .addToTeam
  let record ← lock principal
  let team ← target team
  if record.teams.any (·.id = team.id) then return false
  update [.memberships record.kind] (·.join ⟨record.kind, record.id, team.id⟩)
  return true

/-- Ends the membership of a principal in a team; the answer tells whether it was a member. -/
def removeFromTeam (principal : PrincipalHandle) (team : TeamHandle) : Action Bool := do
  attempt .removeFromTeam
  let record ← lock principal
  match team.id with
  | none => return false
  | some id =>
    if !record.teams.any (·.id = id) then return false
    update [.memberships record.kind] (·.leave ⟨record.kind, record.id, id⟩)
    return true

end TeamAccess.Principals
