import TeamAccess.Registry.Principals

/-! # Membership

One edge between a principal and a team is added or removed at a time, and each change is durable at
once, so that an interrupted run of many changes can be repeated.
-/

namespace TeamAccess.MembershipService

open TeamAccess.Action

/-- Makes a principal a member of a team; the answer tells whether it was none. -/
def add (principal : PrincipalHandle) (team : TeamHandle) : Action Bool := do
  attempt .addMembership
  let added ← guarded do
    let added ← Principals.addToTeam principal team
    commit
    return added
  record (.membership (if added then .added else .unchanged) principal.identifier principal.kind
    team.name)
  return added

/-- Ends the membership of a principal in a team; the answer tells whether it was a member. -/
def remove (principal : PrincipalHandle) (team : TeamHandle) : Action Bool := do
  attempt .removeMembership
  let removed ← guarded do
    let removed ← Principals.removeFromTeam principal team
    commit
    return removed
  record (.membership (if removed then .removed else .unchanged) principal.identifier
    principal.kind team.name)
  return removed

end TeamAccess.MembershipService
