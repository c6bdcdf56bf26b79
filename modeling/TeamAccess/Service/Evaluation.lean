import TeamAccess.Registry.Permissions
import TeamAccess.Registry.Principals

/-! # Evaluation of permissions

Every question reads its subject again, so that the answer follows the committed state of the store.
A permission that nobody knows is held by nobody; a subject that is not stored is a failure.
-/

namespace TeamAccess.Evaluation

open TeamAccess.Action

/-- Whether one of some teams holds a permission. -/
def someTeamHas (name : String) : List Team → Action Bool
  | [] => return false
  | team :: rest => do
    if ← Permissions.teamHas team.id name then return true
    someTeamHas name rest

/-- Whether a user holds a permission directly or, if asked for, through a team. -/
def userHas (user : PrincipalHandle) (name : String) (includeTeams : Bool) : Action Bool :=
  guarded do
    let current ← Principals.reload user
    if ← Permissions.directlyHas current.kind current.id name then return true
    if !includeTeams then return false
    someTeamHas name current.teams

/-- Whether a team holds a permission. -/
def teamHas (team : TeamHandle) (name : String) : Action Bool :=
  guarded do
    match team.id with
    | none => throw (.notFound .team team.name)
    | some id =>
      match ← Teams.get? id with
      | none => throw (.notFound .team team.name)
      | some _ => Permissions.teamHas id name

/-- Whether one of the teams of an API key holds a permission. -/
def keyHas (apiKey : PrincipalHandle) (name : String) : Action Bool :=
  guarded do
    let current ← Principals.reload apiKey
    someTeamHas name current.teams

/-- The permissions of a list, each name at its first place. -/
def distinct (permissions : List Permission) : List Permission :=
  permissions.foldl (fun seen p => if seen.any (·.name = p.name) then seen else seen ++ [p]) []

/-- The permissions of a principal: the direct ones by name, then those of each team by name, none
twice. -/
def effective (principal : PrincipalHandle) : Action (List Permission) :=
  guarded do
    let current ← Principals.reload principal
    let direct ← Permissions.directFor current.kind current.id
    let inherited ← current.teams.mapM fun team => Permissions.forTeam team.id
    return distinct (direct ++ inherited.flatten)

end TeamAccess.Evaluation
