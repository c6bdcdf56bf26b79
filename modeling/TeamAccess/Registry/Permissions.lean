import TeamAccess.Registry.Record

/-! # Permissions and grants

Permissions are known by name. Questions about grants are asked of the store; granting and revoking
look at the grants of the entity handed in, and are stored if the session tracks it.
-/

namespace TeamAccess.Permissions

open TeamAccess.Action

/-- Adds a permission. -/
def create (name : String) (description : Option String) : Action Permission := do
  attempt .createPermission
  change [.permissions] (·.addPermission name description)

/-- The permission of a name. -/
def find? (name : String) : Action (Option Permission) := do
  attempt .findPermission
  query [.permissions] (·.permission? name)

/-- All permissions by name. -/
def list : Action (List Permission) := do
  attempt .listPermissions
  query [.permissions] (·.allPermissions)

/-- Whether a principal holds a permission directly; API keys never do. -/
def directlyHas (kind : PrincipalKind) (id : Uuid) (name : String) : Action Bool := do
  attempt .userHas
  match kind with
  | .apiKey => return false
  | .user k => query [.userGrants k, .permissions] (·.userHolds k id name)

/-- Whether a team holds a permission. -/
def teamHas (team : Uuid) (name : String) : Action Bool := do
  attempt .teamHas
  query [.teamGrants, .permissions] (·.teamHolds team name)

/-- The permissions that a principal holds directly, by name. -/
def directFor (kind : PrincipalKind) (id : Uuid) : Action (List Permission) := do
  attempt .directFor
  match kind with
  | .apiKey => return []
  | .user k => query [.permissions, .userGrants k] (·.directPermissions k id)

/-- The permissions of a team by name. -/
def forTeam (team : Uuid) : Action (List Permission) := do
  attempt .forTeam
  query [.permissions, .teamGrants] (·.teamPermissions team)

/-- Grants a permission to a team; the answer tells whether the team lacked it. -/
def grantToTeam (team : TeamHandle) (permission : Permission) : Action Bool := do
  attempt .grantToTeam
  match team.id, team.tracked with
  | some id, true =>
    if ← ask (·.teamGrants.contains ⟨id, permission.id⟩) then return false
    update [.teamGrants] (·.grantTeam ⟨id, permission.id⟩)
    return true
  | _, _ => return true

/-- Takes a permission from a team; the answer tells whether the team held it. -/
def revokeFromTeam (team : TeamHandle) (permission : Permission) : Action Bool := do
  attempt .revokeFromTeam
  match team.id, team.tracked with
  | some id, true =>
    if !(← ask (·.teamGrants.contains ⟨id, permission.id⟩)) then return false
    update [.teamGrants] (·.revokeTeam ⟨id, permission.id⟩)
    return true
  | _, _ => return false

/-- Grants a permission to a user; the answer tells whether the user lacked it. -/
def grantToUser (user : PrincipalHandle) (permission : Permission) : Action Bool := do
  attempt .grantToUser
  match user.kind with
  | .apiKey => throw .noDirectGrants
  | .user kind =>
    match user.id, user.tracked with
    | some id, true =>
      if ← ask (·.userGrants.contains ⟨kind, id, permission.id⟩) then return false
      update [.userGrants kind] (·.grantUser ⟨kind, id, permission.id⟩)
      return true
    | _, _ => return true

end TeamAccess.Permissions
