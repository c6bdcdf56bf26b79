import TeamAccess.Registry.Record

/-! # External groups and their mappings

A directory group is known by its distinguished name only; a provider group has a record. At most
one mapping joins a group and a team, and a mapping may name a team that is not stored.
-/

namespace TeamAccess.Groups

open TeamAccess.Action

/-- Adds the record of a provider group. -/
def create (name : String) : Action OidcGroup := do
  attempt .createOidcGroup
  change [.oidcGroups] (·.addOidcGroup name)

/-- The provider group of a name. -/
def find? (name : String) : Action (Option OidcGroup) := do
  attempt .findOidcGroup
  query [.oidcGroups] (·.oidcGroup? name)

/-- All provider groups by name. -/
def list : Action (List OidcGroup) := do
  attempt .listOidcGroups
  query [.oidcGroups] (·.allOidcGroups)

/-- The identifier of a team that a mapping is added for. -/
def mappedTeam (source : GroupSource) (team : TeamHandle) : Action Uuid :=
  match team.id with
  | some id => pure id
  | none => throw (.store (.required (.mappedTeam source)))

/-- Maps a directory group to a team; the answer tells whether the mapping is new. -/
def mapLdap (team : TeamHandle) (dn : String) : Action Bool := do
  attempt .mapLdap
  require [.ldapMappings]
  let id ← mappedTeam .ldap team
  let known ← ask (·.ldapMappings.contains ⟨id, dn⟩)
  update [.ldapMappings] (·.mapLdap id dn)
  return !known

/-- Removes the mapping of a directory group to a team; the answer tells whether there was one. -/
def unmapLdap (team : TeamHandle) (dn : String) : Action Bool := do
  attempt .unmapLdap
  require [.ldapMappings]
  match team.id with
  | none => return false
  | some id =>
    let known ← ask (·.ldapMappings.contains ⟨id, dn⟩)
    update [.ldapMappings] (·.unmapLdap id dn)
    return known

/-- The teams reached from a directory group, by name. -/
def teamsForDn (dn : String) : Action (List Team) := do
  attempt .teamsForDn
  let teams ← query [.teams, .ldapMappings] (·.teamsForDn dn)
  requireTeamGrants teams
  return teams

/-- The directory groups that reach a team, sorted. -/
def dnsForTeam (team : TeamHandle) : Action (List String) := do
  attempt .dnsForTeam
  query [.ldapMappings] fun s => (team.id.map s.dnsForTeam).getD []

/-- Maps a provider group to a team; the answer tells whether the mapping is new. -/
def mapOidc (team : TeamHandle) (group : OidcGroup) : Action Bool := do
  attempt .mapOidc
  require [.oidcMappings]
  let id ← mappedTeam .oidc team
  let known ← ask (·.oidcMappings.contains ⟨id, group.id⟩)
  update [.oidcMappings] (·.mapOidc id group.id)
  return !known

/-- Removes the mapping of a provider group to a team; the answer tells whether there was one. -/
def unmapOidc (team : TeamHandle) (group : OidcGroup) : Action Bool := do
  attempt .unmapOidc
  require [.oidcMappings]
  match team.id with
  | none => return false
  | some id =>
    let known ← ask (·.oidcMappings.contains ⟨id, group.id⟩)
    update [.oidcMappings] (·.unmapOidc id group.id)
    return known

/-- The teams reached from a provider group, by name. -/
def teamsForGroup (group : OidcGroup) : Action (List Team) := do
  attempt .teamsForOidcGroup
  let teams ← query [.teams, .oidcMappings] (·.teamsForOidcGroup group.id)
  requireTeamGrants teams
  return teams

/-- The names of the provider groups that reach a team, sorted. -/
def namesForTeam (team : TeamHandle) : Action (List String) := do
  attempt .oidcNamesForTeam
  query [.oidcGroups, .oidcMappings] fun s => (team.id.map s.oidcNamesForTeam).getD []

end TeamAccess.Groups
