import TeamAccess.Registry.Groups

/-! # Group mapping

Both directions between the external groups of a source and the teams they are mapped to.
-/

namespace TeamAccess.GroupMapping

open TeamAccess.Action

/-- The teams that a group of a source reaches, by name. An unknown group reaches none and is
recorded. -/
def teamsForGroup (source : GroupSource) (group : String) : Action (List Team) := do
  match source with
  | .ldap =>
    let teams ← Groups.teamsForDn group
    if teams.isEmpty then record (.unresolvedGroup .ldap group)
    return teams
  | .oidc =>
    match ← Groups.find? group with
    | none =>
      record (.unresolvedGroup .oidc group)
      return []
    | some g => Groups.teamsForGroup g

/-- The groups of a source that reach a team, sorted. -/
def groupsForTeam (source : GroupSource) (team : TeamHandle) : Action (List String) :=
  match source with
  | .ldap => Groups.dnsForTeam team
  | .oidc => Groups.namesForTeam team

/-- Whether a group of a source reaches a team. -/
def isMapped (source : GroupSource) (team : TeamHandle) (group : String) : Action Bool := do
  return (← groupsForTeam source team).contains group

end TeamAccess.GroupMapping
