import TeamAccess.Store.Basic
import TeamAccess.Store.Fault

/-! # Changing the store

Each change adds or removes the rows it names and no others, or breaks a rule of a table and changes
nothing. A new row gets an identifier past all those in use.
-/

namespace TeamAccess

namespace Store

/-- Every identifier that some row holds. -/
def usedIds (s : Store) : List Uuid :=
  s.permissions.map (·.id) ++ s.teams.map (·.id) ++ s.users.map (·.id) ++ s.apiKeys.map (·.id)
    ++ s.oidcGroups.map (·.id) ++ s.ldapMappings.map (·.team) ++ s.oidcMappings.map (·.team)
    ++ s.oidcMappings.map (·.group) ++ s.memberships.map (·.principal)
    ++ s.memberships.map (·.team) ++ s.userGrants.map (·.user) ++ s.userGrants.map (·.permission)
    ++ s.teamGrants.map (·.team) ++ s.teamGrants.map (·.permission)

/-- The least identifier that is issued. -/
def firstId : Nat := 0x6d1f0c2a93b74e58a1c4000000000000

/-- An identifier that no row holds. -/
def freshId (s : Store) : Uuid := ⟨s.usedIds.foldl (fun n u => max n (u.value + 1)) firstId⟩

/-- Adds a permission. -/
def addPermission (s : Store) (name : String) (description : Option String) :
    Except StoreFault (Permission × Store) :=
  if (s.permission? name).isSome then .error (.duplicate .permissionName)
  else
    let p : Permission := ⟨s.freshId, name, description⟩
    .ok (p, { s with permissions := s.permissions ++ [p] })

/-- Adds a team under an identifier. -/
def insertTeam (s : Store) (t : Team) : Except StoreFault (Team × Store) :=
  if (s.team? t.name).isSome then .error (.duplicate .teamName)
  else if (s.teamById? t.id).isSome then .error (.duplicate .teamId)
  else .ok (t, { s with teams := s.teams ++ [t] })

/-- Adds a team. -/
def addTeam (s : Store) (name : String) : Except StoreFault (Team × Store) :=
  s.insertTeam ⟨s.freshId, name⟩

/-- Gives the team of an identifier another name. -/
def renameTeam (s : Store) (id : Uuid) (name : String) : Except StoreFault (Unit × Store) :=
  if s.teams.any fun t => t.name = name ∧ t.id ≠ id then .error (.duplicate .teamName)
  else .ok ((), { s with teams := s.teams.map fun t => if t.id = id then ⟨id, name⟩ else t })

/-- Adds a user. -/
def addUser (s : Store) (username : String) (profile : Profile) :
    Except StoreFault (User × Store) :=
  if (s.user? profile.kind username).isSome then .error (.duplicate (.username profile.kind))
  else
    let u : User := ⟨s.freshId, username, profile⟩
    .ok (u, { s with users := s.users ++ [u] })

/-- Adds memberships of one principal, each of which has to be new. -/
def addMemberships (s : Store) (kind : PrincipalKind) (principal : Uuid) :
    List Uuid → Except StoreFault Store
  | [] => .ok s
  | team :: rest =>
    if ⟨kind, principal, team⟩ ∈ s.memberships then .error (.duplicate (.membership kind))
    else addMemberships
      { s with memberships := s.memberships ++ [⟨kind, principal, team⟩] } kind principal rest

/-- Adds an API key with its first teams. -/
def addApiKey (s : Store) (key : String) (teams : List Uuid) :
    Except StoreFault (ApiKey × Store) :=
  if (s.apiKey? key).isSome then .error (.duplicate .apiKeyText)
  else
    let k : ApiKey := ⟨s.freshId, key⟩
    (addMemberships { s with apiKeys := s.apiKeys ++ [k] } .apiKey k.id teams).map (k, ·)

/-- Gives the API key of an identifier another text. -/
def replaceApiKey (s : Store) (id : Uuid) (key : String) : Except StoreFault (Unit × Store) :=
  if s.apiKeys.any fun k => k.key = key ∧ k.id ≠ id then .error (.duplicate .apiKeyText)
  else .ok ((), { s with apiKeys := s.apiKeys.map fun k => if k.id = id then ⟨id, key⟩ else k })

/-- Adds the record of a provider group. -/
def addOidcGroup (s : Store) (name : String) : Except StoreFault (OidcGroup × Store) :=
  if (s.oidcGroup? name).isSome then .error (.duplicate .oidcGroupName)
  else
    let g : OidcGroup := ⟨s.freshId, name⟩
    .ok (g, { s with oidcGroups := s.oidcGroups ++ [g] })

/-- Maps a directory group to a team; a mapping that is there stays. -/
def mapLdap (s : Store) (team : Uuid) (dn : String) : Store :=
  if ⟨team, dn⟩ ∈ s.ldapMappings then s
  else { s with ldapMappings := s.ldapMappings ++ [⟨team, dn⟩] }

/-- Removes the mapping of a directory group to a team. -/
def unmapLdap (s : Store) (team : Uuid) (dn : String) : Store :=
  { s with ldapMappings := s.ldapMappings.filter (· ≠ ⟨team, dn⟩) }

/-- Maps a provider group to a team; a mapping that is there stays. -/
def mapOidc (s : Store) (team group : Uuid) : Store :=
  if ⟨team, group⟩ ∈ s.oidcMappings then s
  else { s with oidcMappings := s.oidcMappings ++ [⟨team, group⟩] }

/-- Removes the mapping of a provider group to a team. -/
def unmapOidc (s : Store) (team group : Uuid) : Store :=
  { s with oidcMappings := s.oidcMappings.filter (· ≠ ⟨team, group⟩) }

/-- Makes a principal a member of a team. -/
def join (s : Store) (edge : Membership) : Store :=
  if edge ∈ s.memberships then s else { s with memberships := s.memberships ++ [edge] }

/-- Ends the membership of a principal in a team. -/
def leave (s : Store) (edge : Membership) : Store :=
  { s with memberships := s.memberships.filter (· ≠ edge) }

/-- Grants a permission to a team. -/
def grantTeam (s : Store) (grant : TeamGrant) : Store :=
  if grant ∈ s.teamGrants then s else { s with teamGrants := s.teamGrants ++ [grant] }

/-- Takes a permission from a team. -/
def revokeTeam (s : Store) (grant : TeamGrant) : Store :=
  { s with teamGrants := s.teamGrants.filter (· ≠ grant) }

/-- Grants a permission to a user. -/
def grantUser (s : Store) (grant : UserGrant) : Store :=
  if grant ∈ s.userGrants then s else { s with userGrants := s.userGrants ++ [grant] }

/-- Removes a table with all its rows. -/
def dropTable (s : Store) (table : Table) : Store :=
  let s := { s with missing := table :: s.missing }
  match table with
  | .permissions => { s with permissions := [] }
  | .teams => { s with teams := [] }
  | .users k => { s with users := s.users.filter (·.kind ≠ k) }
  | .apiKeys => { s with apiKeys := [] }
  | .oidcGroups => { s with oidcGroups := [] }
  | .ldapMappings => { s with ldapMappings := [] }
  | .oidcMappings => { s with oidcMappings := [] }
  | .memberships k => { s with memberships := s.memberships.filter (·.kind ≠ k) }
  | .userGrants k => { s with userGrants := s.userGrants.filter (·.kind ≠ k) }
  | .teamGrants => { s with teamGrants := [] }

/-- Creates the tables that are missing, without rows. -/
def createTables (s : Store) : Store := { s with missing := [] }

end Store

end TeamAccess
