import TeamAccess.Registry.Permissions
import TeamAccess.Script.Step
import TeamAccess.Service.Bootstrap
import TeamAccess.Service.Decision

/-! # Running scripts

References are looked up first, without the outage of the step; then the command runs with it. A
step in a session of its own is committed if it gives an answer and rolled back if it fails. Steps
that share a session are committed together at the end, and a failure ends the transaction.
-/

namespace TeamAccess

open TeamAccess.Action

namespace Script

/-- The kind of a text that has to name one. -/
def kindOf (text : String) : Action PrincipalKind :=
  match PrincipalKind.ofText? text with
  | some kind => pure kind
  | none => throw (.unknownKind text)

/-- The source of a text that has to name one. -/
def sourceOf (text : String) : Action GroupSource :=
  match GroupSource.ofText? text with
  | some source => pure source
  | none => throw (.unknownSource text)

/-- A result that has to be there. -/
def found {α : Type} (what : Named) : Option α → Action α
  | some a => pure a
  | none => throw (.unresolved what)

/-- The stored principal of a kind and a name. -/
def storedPrincipal (kind : PrincipalKind) (name : String) : Action PrincipalHandle := do
  return (← found (.principal kind name) (← Principals.resolve? kind name)).handle

/-- The handle of a referenced principal, or none for nobody. -/
def principal? : PrincipalRef → Action (Option PrincipalHandle)
  | .nobody => return none
  | .stored kind name => do
    return some (← storedPrincipal (← kindOf kind) name)
  | .ghost kind name id => do
    return some ⟨← kindOf kind, id.map (⟨·⟩), name, false⟩
  | .copyOf kind name stored => do
    let kind ← kindOf kind
    return some ⟨kind, (← storedPrincipal kind stored).id, name, false⟩

/-- A principal that is asked for something it carries; nobody carries nothing. -/
def subject (asked : String) : Option PrincipalHandle → Action PrincipalHandle
  | some handle => pure handle
  | none => throw (.nobody asked)

/-- The handle of a principal that is read again by its kind. -/
def principal (ref : PrincipalRef) : Action PrincipalHandle := do
  subject "kind" (← principal? ref)

/-- The stored team of a name. -/
def storedTeam (name : String) : Action Team := do
  return (← found (.team name) (← Teams.find? name)).team

/-- The handle of a referenced team. -/
def team : TeamRef → Action TeamHandle
  | .stored name => return (← storedTeam name).handle
  | .ghost name id => return ⟨id.map (⟨·⟩), name, false⟩
  | .copyOf name stored => return ⟨some (← storedTeam stored).id, name, false⟩

/-- The stored permission of a name. -/
def permission (name : String) : Action Permission := do
  found (.permission name) (← Permissions.find? name)

/-- The stored provider group of a name. -/
def oidcGroup (name : String) : Action OidcGroup := do
  found (.oidcGroup name) (← Groups.find? name)

/-- Sets an attribute of a profile. -/
def setAttribute (profile : Profile) (name : String) (value : Json) : Action Profile :=
  match profile, name, value with
  | .managed _ email suspended, "fullname", v => return .managed v.text? email suspended
  | .managed fullname _ suspended, "email", v => return .managed fullname v.text? suspended
  | .managed fullname email _, "suspended", .bool b => return .managed fullname email b
  | .managed .., "suspended", _ => throw (.store (.required .suspended))
  | .ldap _, "dn", v => return .ldap v.text?
  | .oidc _ email, "subject_identifier", v => return .oidc v.text? email
  | .oidc subject _, "email", v => return .oidc subject v.text?
  | _, _, _ => throw (.unknownAttribute profile.kind name)

/-- The profile of a user about whom nothing is known. -/
def blankProfile : UserKind → Profile
  | .managed => .managed none none false
  | .ldap => .ldap none
  | .oidc => .oidc none none

/-- Runs an action with an outage of the store. -/
def during {α : Type} (outage : Option Outage) (act : Action α) : Action α := do
  modify fun s => { s with outage }
  try act finally modify fun s => { s with outage := none }

/-- Removes a table. -/
def dropTable (name : String) : Action Unit := do
  match Table.ofName? name with
  | none => throw (.store (.noSuchTable name))
  | some table => update [table] (·.dropTable table)

/-- A team with all its mappings. -/
def describe (record : TeamRecord) : Action TeamDescription := do
  let ldap ← Groups.dnsForTeam record.team.handle
  let oidc ← Groups.namesForTeam record.team.handle
  return ⟨record, ldap, oidc⟩

/-- Everything that is stored. -/
def inventory : Action Inventory := do
  let permissions ← Permissions.list
  let teams ← (← Teams.list).mapM describe
  let users ← UserKind.all.mapM fun kind => do
    return (kind, ← Principals.listUsers (.user kind))
  let apiKeys ← loadKeys (← query [.apiKeys] (·.allApiKeys))
  let oidcGroups ← Groups.list
  return ⟨permissions, teams, users, apiKeys, oidcGroups⟩

/-- Runs a command; the outage hits its service call but not the lookup of what it names. -/
def perform (outage : Option Outage) : Command → Action Answer
  | .createPermission name description =>
    return .permission (← Permissions.create name description)
  | .getPermission name => return .ofOption .permission (← Permissions.find? name)
  | .listPermissions => return .permissions (← Permissions.list)
  | .createTeam name => return .team (← Teams.create name)
  | .getTeam name => return .ofOption .team (← Teams.find? name)
  | .renameTeam ref name => do
    match (← team ref).id with
    | none => return .nothing
    | some id => return .ofOption .team (← Teams.rename id name)
  | .listTeams => return .teams (← Teams.list)
  | .createUser kind name attributes => do
    let kind ← Principals.userKind (← kindOf kind)
    let profile ← attributes.foldlM (fun p a => setAttribute p a.1 a.2) (blankProfile kind)
    return .principal (.user (← Principals.createUser name profile))
  | .findUser kind name => do
    return .ofOption (.principal ∘ .user) (← Principals.findUser? (← kindOf kind) name)
  | .resolve kind name => do
    return .ofOption .principal (← Principals.resolve? (← kindOf kind) name)
  | .getUserPrincipal name =>
    return .ofOption (.principal ∘ .user) (← Principals.findAnyUser? name)
  | .listUsers kind => do return .users (← Principals.listUsers (← kindOf kind))
  | .createApiKey key refs => do
    let teams ← (← refs.mapM team).mapM Teams.store
    return .principal (.apiKey (← Principals.createApiKey key teams))
  | .getApiKey key => return .ofOption (.principal ∘ .apiKey) (← Principals.findApiKey? key)
  | .regenerateApiKey ref key => do
    let p ← principal ref
    match p.kind with
    | .apiKey => return .principal (.apiKey (← Principals.regenerateApiKey p key))
    | .user _ => return .principal (← Principals.lock p)
  | .createOidcGroup name => return .name (← Groups.create name).name
  | .getOidcGroup name => return .ofOption (.name ·.name) (← Groups.find? name)
  | .listOidcGroups => return .names ((← Groups.list).map (·.name))
  | .mapLdap ref group => do
    let t ← team ref
    let created ← Groups.mapLdap t group
    return .ldapMapping created group (← Groups.dnsForTeam t)
  | .mapOidc ref group => do
    let t ← team ref
    let created ← Groups.mapOidc t (← oidcGroup group)
    return .oidcMapping created (← Groups.namesForTeam t)
  | .unmapLdap ref group => do return .flag (← Groups.unmapLdap (← team ref) group)
  | .unmapOidc ref group => do
    let t ← team ref
    return .flag (← Groups.unmapOidc t (← oidcGroup group))
  | .grantTeam ref name => do
    let t ← team ref
    return .flag (← Permissions.grantToTeam t (← permission name))
  | .revokeTeam ref name => do
    let t ← team ref
    return .flag (← Permissions.revokeFromTeam t (← permission name))
  | .grantUser ref name => do
    let p ← principal? ref
    let granted ← permission name
    return .flag (← Permissions.grantToUser (← subject "permissions" p) granted)
  | .bootstrap username => do
    Bootstrap.ensure username
    return .nothing
  | .dropTable name => do
    dropTable name
    return .nothing
  | .teamsForGroup source group => do
    return .names ((← GroupMapping.teamsForGroup (← sourceOf source) group).map (·.name))
  | .groupsForTeam source ref => do
    let source ← sourceOf source
    return .names (← GroupMapping.groupsForTeam source (← team ref))
  | .isMapped source ref group => do
    let source ← sourceOf source
    return .flag (← GroupMapping.isMapped source (← team ref) group)
  | .addMember ref teamRef => do
    let p ← principal? ref
    let t ← team teamRef
    let p ← subject "identifier" p
    return .flag (← during outage (MembershipService.add p t))
  | .removeMember ref teamRef => do
    let p ← principal? ref
    let t ← team teamRef
    let p ← subject "identifier" p
    return .flag (← during outage (MembershipService.remove p t))
  | .sync ref groups => do
    let p ← principal? ref
    groups.refuseLoneText
    let p ← subject "kind" p
    return .principal (← during outage (Synchronization.synchronize p groups))
  | .userHas ref name includeTeams => do
    let p ← principal ref
    return .flag (← during outage (Evaluation.userHas p name includeTeams))
  | .teamHas ref name => do
    let t ← team ref
    return .flag (← during outage (Evaluation.teamHas t name))
  | .keyHas ref name => do
    let p ← principal ref
    return .flag (← during outage (Evaluation.keyHas p name))
  | .effective ref => do
    let p ← principal ref
    return .permissions (← during outage (Evaluation.effective p))
  | .authorize ref required => do
    let p ← principal? ref
    return .decision ((← during outage (Decision.authorize p required)) == .allow)
  | .dump => return .inventory (← inventory)

/-- Runs a step in a session, and gives the session after it without the events of the step. -/
def runStep (step : Step) (session : Session) : StepResult × Session :=
  match perform step.outage step.command { session with events := [], outage := none } with
  | .ok answer s => (⟨.ok answer, s.events⟩, { s with events := [], outage := none })
  | .error failure s => (⟨.error failure, s.events⟩, { s with events := [], outage := none })

/-- Runs a step in a session of its own: the store after it is what the session sees if the step
gives an answer, and what was committed last if it fails. -/
def runSingle (step : Step) (store : Store) : StepResult × Store :=
  let (result, session) := runStep step (Session.start store)
  match result.outcome with
  | .ok _ => (result, session.current)
  | .error _ => (result, session.durable)

/-- Runs steps in one session up to the first failure; the answer tells whether all succeeded. -/
def runShared : List Step → Session → List StepResult × Bool × Session
  | [], session => ([], true, session)
  | step :: rest, session =>
    let (result, session) := runStep step session
    match result.outcome with
    | .ok _ =>
      let (results, complete, session) := runShared rest session
      (result :: results, complete, session)
    | .error _ => ([result], false, session)

/-- Runs steps in one session that is committed at the end, if asked for and if no step fails. -/
def runTransaction (steps : List Step) (commit : Bool) (store : Store) :
    List StepResult × Bool × Store :=
  let (results, complete, session) := runShared steps (Session.start store)
  let committed := complete && commit
  (results, committed, if committed then session.current else session.durable)

/-- Runs an entry. -/
def runEntry (entry : Entry) (store : Store) : EntryResult × Store :=
  match entry with
  | .single step => (runSingle step store).map .single id
  | .transaction steps commit =>
    let (results, committed, store) := runTransaction steps commit store
    (.transaction results committed, store)

/-- Runs entries one after the other. -/
def run : List Entry → Store → List EntryResult × Store
  | [], store => ([], store)
  | entry :: rest, store =>
    let (result, store) := runEntry entry store
    let (results, store) := run rest store
    (result :: results, store)

end Script

end TeamAccess
