import TeamAccess.Registry.Record

/-! # Teams -/

namespace TeamAccess.Teams

open TeamAccess.Action

/-- Adds a team without permissions. -/
def create (name : String) : Action TeamRecord := do
  attempt .createTeam
  let team ← change [.teams] (·.addTeam name)
  return ⟨team, []⟩

/-- Reads the edges of a team that has been found. -/
def loaded (team : Option Team) : Action (Option TeamRecord) := do
  return (← loadTeams team.toList).head?

/-- The team of an identifier. -/
def get? (id : Uuid) : Action (Option TeamRecord) := do
  attempt .getTeam
  loaded (← query [.teams] (·.teamById? id))

/-- The team of a name. -/
def find? (name : String) : Action (Option TeamRecord) := do
  attempt .findTeam
  loaded (← query [.teams] (·.team? name))

/-- All teams by name. -/
def list : Action (List TeamRecord) := do
  attempt .listTeams
  loadTeams (← query [.teams] (·.allTeams))

/-- Gives the team of an identifier another name. -/
def rename (id : Uuid) (name : String) : Action (Option TeamRecord) := do
  attempt .renameTeam
  match ← loaded (← query [.teams] (·.teamById? id)) with
  | none => return none
  | some record =>
    change [.teams] (·.renameTeam id name)
    return some { record with team := ⟨id, name⟩ }

/-- The stored team of a handle. A team that the session does not track is stored as a new one,
under the identifier that it carries. -/
def store (team : TeamHandle) : Action Team :=
  match team.id, team.tracked with
  | some id, true => return ⟨id, team.name⟩
  | some id, false => change [.teams] (·.insertTeam ⟨id, team.name⟩)
  | none, _ => change [.teams] (·.addTeam team.name)

end TeamAccess.Teams
