import TeamAccess.Http.Call
import TeamAccess.Http.Gate
import TeamAccess.Service.Synchronization

/-! # Answering calls

Each call looks up what it names, in a fixed order, before it changes anything; what it changes is
made durable at once. Memberships are made durable edge by edge.
-/

namespace TeamAccess.Http

open TeamAccess.Action

/-- The answer to a call. -/
structure Reply where
  status : Nat
  body : Json

namespace Reply

/-- A call that went well. -/
def ok (body : Json) : Reply := ⟨200, body⟩

/-- A call that created something. -/
def created (body : Json) : Reply := ⟨201, body⟩

/-- Whether a call changed something. -/
def changed (b : Bool) : Reply := ok (.obj [("changed", .bool b)])

/-- A permission. -/
def permission (p : Permission) : Json :=
  .obj [("name", .str p.name), ("description", .ofText? p.description)]

/-- The members of a team. -/
def teamMembers (r : TeamRecord) : List (String × Json) :=
  [("id", .str r.team.id.text), ("name", .str r.team.name),
    ("permissions", .texts (r.permissions.map (·.name)))]

/-- A user. -/
def user (r : UserRecord) : Json :=
  .obj [("kind", .str r.user.kind.text), ("username", .str r.user.username),
    ("teams", .texts (r.teams.map (·.name))), ("permissions", .texts (r.permissions.map (·.name)))]

/-- An API key with its text. -/
def apiKey (r : KeyRecord) : Json :=
  .obj [("id", .str r.apiKey.id.text), ("key", .str r.apiKey.key),
    ("teams", .texts (r.teams.map (·.name)))]

/-- A provider group. -/
def oidcGroup (g : OidcGroup) : Json := .obj [("id", .str g.id.text), ("name", .str g.name)]

end Reply

namespace Call

/-- The team of a path. -/
def theTeam (id : Uuid) : Action TeamRecord := do
  match ← Teams.get? id with
  | some record => return record
  | none => throw (.refused 404 "Team not found")

/-- The permission of a path. -/
def thePermission (name : String) : Action Permission := do
  match ← Permissions.find? name with
  | some permission => return permission
  | none => throw (.refused 404 "Permission not found")

/-- The provider group of a request. -/
def theGroup (name : String) : Action OidcGroup := do
  match ← Groups.find? name with
  | some group => return group
  | none => throw (.refused 404 "OIDC group not found")

/-- The refusal of a kind that is no kind of users. -/
def notUsers : Failure := .refused 400 "Not a user kind"

/-- The user of a path. -/
def theUser (kind : PrincipalKind) (username : String) : Action UserRecord := do
  if kind = .apiKey then throw notUsers
  match ← Principals.findUser? kind username with
  | some user => return user
  | none => throw (.refused 404 "User not found")

/-- Refuses to create what is there. -/
def refuseIf {α : Type} (found : Option α) (detail : String) : Action Unit :=
  if found.isSome then throw (.refused 409 detail) else pure ()

/-- The mappings of a team. -/
def mappings (id : Uuid) : Action Reply := do
  let team := (← theTeam id).team.handle
  let ldap ← GroupMapping.groupsForTeam .ldap team
  let oidc ← GroupMapping.groupsForTeam .oidc team
  return .ok (.obj [("ldap", .texts ldap), ("oidc", .texts oidc)])

/-- What a new user's profile takes from a request. -/
def profileOf (fullname email dn subjectIdentifier : Option String) : UserKind → Profile
  | .managed => .managed fullname email false
  | .ldap => .ldap dn
  | .oidc => .oidc subjectIdentifier email

/-- Creates a team and, if asked for, an API key of it. -/
def makeTeam (name : String) (withApiKey : Bool) : Action Reply := do
  refuseIf (← Teams.find? name) "Team already exists"
  let team ← Teams.create name
  let apiKey ← if withApiKey then
      let record ← Principals.createApiKey (← newKey) [team.team]
      pure (some record.apiKey.key)
    else pure none
  commit
  record (.teamCreated name withApiKey)
  return .created (.obj (Reply.teamMembers team ++ [("api_key", .ofText? apiKey)]))

/-- Gives a team another name, which no other team may have. -/
def changeTeamName (id : Uuid) (name : String) : Action Reply := do
  let clash ← Teams.find? name
  refuseIf (clash.filter (·.team.id ≠ id)) "Team already exists"
  match ← Teams.rename id name with
  | none => throw (.refused 404 "Team not found")
  | some team =>
    commit
    return .ok (.obj (Reply.teamMembers team))

/-- Creates a user. -/
def makeUser (kind : PrincipalKind) (username : String) (profile : UserKind → Profile) :
    Action Reply := do
  match kind with
  | .apiKey => throw notUsers
  | .user k =>
    refuseIf (← Principals.findUser? kind username) "User already exists"
    let user ← Principals.createUser username (profile k)
    commit
    record (.userCreated k username)
    return .created (Reply.user user)

/-- Synchronizes a user with the asserted groups. -/
def synchronized (kind : PrincipalKind) (username : String) (groups : List String) :
    Action Reply := do
  let user ← theUser kind username
  let refreshed ← tryCatch (Synchronization.synchronize user.user.handle (.groups groups)) fun
    | .notSynchronized k => throw (.refused 400 (Failure.notSynchronized k).message)
    | failure => throw failure
  match refreshed with
  | .user r => return .ok (Reply.user r)
  | .apiKey _ => throw notUsers

/-- A token for a user, unless the installation is a productive one. -/
def token (settings : Settings) (now : Int) (subject : String) (kind : PrincipalKind)
    (minutes : Int) : Action Reply := do
  if settings.env = .prod then throw (.refused 404 "Not found")
  if kind = .apiKey then throw (.refused 400 "API keys do not use tokens")
  match Token.issue settings.tokenConfig subject kind now (minutes * 60 * Token.second) with
  | .ok token =>
    return .ok (.obj [("access_token", .str token), ("token_type", .str "bearer")])
  | .error e => throw (.issue e)

/-- The caller of an endpoint that asks for one. -/
def self (caller : Option PrincipalRecord) : Action PrincipalRecord :=
  match caller with
  | some record => pure record
  | none => throw Gate.forbidden

/-- Answers a call of a caller that got past the gate. -/
def answer (settings : Settings) (now : Int) (caller : Option PrincipalRecord) :
    Call → Action Reply
  | .health => return .ok (.obj [("status", .str "ok")])
  | .readiness => return .ok (.obj [("status", .str "ready")])
  | .mintToken subject kind minutes => token settings now subject kind minutes
  | .whoAmI => do
    let me ← self caller
    return .ok (.obj [("kind", .str me.kind.text), ("identifier", .str me.handle.display),
      ("teams", .texts (me.teams.map (·.name)))])
  | .myPermissions => do
    let me ← self caller
    return .ok (.arr ((← Evaluation.effective me.handle).map Reply.permission))
  | .createPermission name description => do
    refuseIf (← Permissions.find? name) "Permission already exists"
    let permission ← Permissions.create name description
    commit
    record (.permissionCreated name)
    return .created (Reply.permission permission)
  | .listPermissions => return .ok (.arr ((← Permissions.list).map Reply.permission))
  | .createTeam name withApiKey => makeTeam name withApiKey
  | .listTeams => return .ok (.arr ((← Teams.list).map fun t => .obj (Reply.teamMembers t)))
  | .renameTeam team name => changeTeamName team name
  | .grantTeamPermission id name => do
    let team := (← theTeam id).team
    let changed ← Permissions.grantToTeam team.handle (← thePermission name)
    commit
    record (.teamPermissionGranted team.name name changed)
    return .changed changed
  | .revokeTeamPermission id name => do
    let team := (← theTeam id).team
    let changed ← Permissions.revokeFromTeam team.handle (← thePermission name)
    commit
    record (.teamPermissionRevoked team.name name changed)
    return .changed changed
  | .createTeamApiKey id => do
    let team := (← theTeam id).team
    let key ← Principals.createApiKey (← newKey) [team]
    commit
    record (.apiKeyCreated team.name (maskKey key.apiKey.key))
    return .created (Reply.apiKey key)
  | .regenerateApiKey key => do
    match ← Principals.findApiKey? key with
    | none => throw (.refused 404 "API key not found")
    | some found =>
      let renewed ← Principals.regenerateApiKey found.apiKey.handle (← newKey)
      commit
      record (.apiKeyRegenerated (maskKey renewed.apiKey.key))
      return .ok (Reply.apiKey renewed)
  | .teamMappings id => mappings id
  | .mapLdapGroup id dn => do
    let team := (← theTeam id).team
    discard (Groups.mapLdap team.handle dn)
    commit
    record (.ldapGroupMapped team.name dn)
    mappings id
  | .unmapLdapGroup id dn => do
    let team := (← theTeam id).team
    let changed ← Groups.unmapLdap team.handle dn
    commit
    record (.ldapGroupUnmapped team.name dn changed)
    return .changed changed
  | .mapOidcGroup id name => do
    let team := (← theTeam id).team
    discard (Groups.mapOidc team.handle (← theGroup name))
    commit
    record (.oidcGroupMapped team.name name)
    mappings id
  | .unmapOidcGroup id name => do
    let team := (← theTeam id).team
    let changed ← Groups.unmapOidc team.handle (← theGroup name)
    commit
    record (.oidcGroupUnmapped team.name name changed)
    return .changed changed
  | .createOidcGroup name => do
    refuseIf (← Groups.find? name) "OIDC group already exists"
    let group ← Groups.create name
    commit
    return .created (Reply.oidcGroup group)
  | .listOidcGroups => return .ok (.arr ((← Groups.list).map Reply.oidcGroup))
  | .createUser kind username fullname email dn subject =>
    makeUser kind username (profileOf fullname email dn subject)
  | .listUsers kind => do
    if kind = .apiKey then throw notUsers
    return .ok (.arr ((← Principals.listUsers kind).map Reply.user))
  | .grantUserPermission kind username name => do
    let user ← theUser kind username
    let changed ← Permissions.grantToUser user.user.handle (← thePermission name)
    commit
    record (.userPermissionGranted username name changed)
    return .changed changed
  | .addUserToTeam kind username id => do
    let user ← theUser kind username
    let team ← theTeam id
    return .changed (← MembershipService.add user.user.handle team.team.handle)
  | .removeUserFromTeam kind username id => do
    let user ← theUser kind username
    let team ← theTeam id
    return .changed (← MembershipService.remove user.user.handle team.team.handle)
  | .synchronizeUser kind username groups => synchronized kind username groups

end Call

end TeamAccess.Http
