import TeamAccess.Service.GroupMapping
import TeamAccess.Service.Membership

/-! # Synchronization

At sign-in the provider asserts all groups of a user. First every team goes that is reached from no
group, or from a group that is not asserted; then every team comes that an asserted group reaches.
Each change is durable on its own, so a run that was interrupted is repeated with the same groups.
-/

namespace TeamAccess

/-- What is handed in as the asserted groups. -/
inductive Assertion where
  | groups (names : List String)
  | loneText
  | other (value : Json)

namespace Assertion

/-- Refuses a text in the place of a collection of texts. -/
def refuseLoneText : Assertion → Action Unit
  | .loneText => throw .loneText
  | .groups _ | .other _ => pure ()

/-- The groups in what is handed in. -/
def names : Assertion → Action (List String)
  | .groups names => pure names
  | .loneText => throw .loneText
  | .other value => throw (.notACollection value)

end Assertion

namespace Synchronization

open TeamAccess.Action

/-- The items of a list without repetitions, each at its first place. -/
def firsts (names : List String) : List String :=
  names.foldl (fun seen name => if seen.contains name then seen else seen ++ [name]) []

/-- Whether a team has to go, each reason recorded: no group reaches it, or one that is not
asserted. -/
def isStale (principal : String) (source : GroupSource) (asserted : List String) (team : Team) :
    Action Bool := do
  let mapped ← GroupMapping.groupsForTeam source team.handle
  if mapped.isEmpty then
    record (.syncTeamUnmapped principal source team.name)
    return true
  let absent := mapped.filter (!asserted.contains ·)
  absent.forM fun group => record (.syncGroupNotAsserted principal source team.name group)
  return !absent.isEmpty

/-- The teams that have to go. -/
def staleTeams (principal : String) (source : GroupSource) (asserted : List String)
    (teams : List Team) : Action (List Team) :=
  teams.filterM (isStale principal source asserted)

/-- Ends the memberships in some teams. -/
def leaveAll (principal : String) (user : PrincipalHandle) (source : GroupSource)
    (teams : List Team) : Action Unit :=
  teams.forM fun team => do
    record (.syncRemove principal source team.name)
    discard (MembershipService.remove user team.handle)

/-- Joins every team that a group reaches. -/
def joinGroup (principal : String) (user : PrincipalHandle) (source : GroupSource)
    (group : String) : Action Unit := do
  (← GroupMapping.teamsForGroup source group).forM fun team => do
    record (.syncAdd principal source team.name group)
    discard (MembershipService.add user team.handle)

/-- Brings the teams of a user in line with the asserted groups. The events of the run call the user
what it was called when it was handed in. -/
def run (user : PrincipalHandle) (source : GroupSource) (asserted : List String) :
    Action PrincipalRecord := do
  let current ← Principals.reload user
  let stale ← staleTeams user.identifier source asserted current.teams
  leaveAll user.identifier current.handle source stale
  asserted.forM (joinGroup user.identifier current.handle source)
  Principals.reload current.handle

/-- The source of a kind of principals that are synchronized. -/
def sourceOf (kind : PrincipalKind) : Action GroupSource :=
  match kind.userKind?.bind (·.source?) with
  | some source => pure source
  | none => throw (.notSynchronized kind)

/-- Synchronizes a user with what is handed in as its groups; the answer is the user as read again.
-/
def synchronize (user : PrincipalHandle) (assertion : Assertion) : Action PrincipalRecord := do
  assertion.refuseLoneText
  let source ← sourceOf user.kind
  let asserted := firsts (← assertion.names)
  record (.syncStarted user.identifier source asserted)
  let refreshed ← guarded (run user source asserted)
  record (.syncCompleted user.identifier source (refreshed.teams.map (·.name)))
  return refreshed

end Synchronization

end TeamAccess
