import TeamAccess.Registry.Permissions
import TeamAccess.Registry.Principals

/-! # Bootstrap

At startup the permission to administer the service is created unless it exists, and so is a managed
user who holds it, if the settings name one.
-/

namespace TeamAccess.Bootstrap

open TeamAccess.Action

/-- The permission that every administrative request needs. -/
def accessManagement : String := "ACCESS_MANAGEMENT"

/-- What the permission is for. -/
def description : String := "Manage teams, permissions, group mappings and memberships"

/-- The permission to administer the service, created if it is not there. -/
def ensurePermission : Action Permission := do
  match ← Permissions.find? accessManagement with
  | some permission => return permission
  | none =>
    let permission ← Permissions.create accessManagement (some description)
    record (.bootstrapPermission accessManagement)
    return permission

/-- The profile of a user about whom nothing is known. -/
def blankProfile : Profile := .managed none none false

/-- The managed user of a username, created if it is not there. -/
def ensureAdmin (username : String) : Action UserRecord := do
  match ← Principals.findUser? (.user .managed) username with
  | some user => return user
  | none =>
    let user ← Principals.createUser username blankProfile
    record (.bootstrapAdmin username)
    return user

/-- Creates what the service needs to administer itself. -/
def ensure (admin : Option String) : Action Unit := do
  let permission ← ensurePermission
  match admin.filter (· != "") with
  | none => pure ()
  | some username =>
    let user ← ensureAdmin username
    discard (Permissions.grantToUser user.user.handle permission)
  commit

end TeamAccess.Bootstrap
