import TeamAccess.Service.Synchronization

/-! # Steps

A script is a list of steps on one store. A step names principals and teams by reference: a stored
one by its name, a copy of a stored one under another name, or one that is not stored at all.
-/

namespace TeamAccess

/-- How a step names a principal. -/
inductive PrincipalRef where
  | nobody
  | stored (kind name : String)
  | ghost (kind name : String) (id : Option Nat)
  | copyOf (kind name stored : String)
  deriving DecidableEq, Repr

/-- How a step names a team. -/
inductive TeamRef where
  | stored (name : String)
  | ghost (name : String) (id : Option Nat)
  | copyOf (name stored : String)
  deriving DecidableEq, Repr

/-- What a step does. -/
inductive Command where
  | createPermission (name : String) (description : Option String)
  | getPermission (name : String)
  | listPermissions
  | createTeam (name : String)
  | getTeam (name : String)
  | renameTeam (team : TeamRef) (name : String)
  | listTeams
  | createUser (kind name : String) (attributes : List (String × Json))
  | findUser (kind name : String)
  | resolve (kind name : String)
  | getUserPrincipal (name : String)
  | listUsers (kind : String)
  | createApiKey (key : String) (teams : List TeamRef)
  | getApiKey (key : String)
  | regenerateApiKey (principal : PrincipalRef) (key : String)
  | createOidcGroup (name : String)
  | getOidcGroup (name : String)
  | listOidcGroups
  | mapLdap (team : TeamRef) (group : String)
  | mapOidc (team : TeamRef) (group : String)
  | unmapLdap (team : TeamRef) (group : String)
  | unmapOidc (team : TeamRef) (group : String)
  | grantTeam (team : TeamRef) (permission : String)
  | revokeTeam (team : TeamRef) (permission : String)
  | grantUser (principal : PrincipalRef) (permission : String)
  | bootstrap (username : Option String)
  | dropTable (name : String)
  | teamsForGroup (source group : String)
  | groupsForTeam (source : String) (team : TeamRef)
  | isMapped (source : String) (team : TeamRef) (group : String)
  | addMember (principal : PrincipalRef) (team : TeamRef)
  | removeMember (principal : PrincipalRef) (team : TeamRef)
  | sync (principal : PrincipalRef) (groups : Assertion)
  | userHas (principal : PrincipalRef) (permission : String) (includeTeams : Bool)
  | teamHas (team : TeamRef) (permission : String)
  | keyHas (principal : PrincipalRef) (permission : String)
  | effective (principal : PrincipalRef)
  | authorize (principal : PrincipalRef) (required : List String)
  | dump

/-- A command, and the outage during its service call. -/
structure Step where
  command : Command
  outage : Option Outage := none

/-- A team with everything that is known of it. -/
structure TeamDescription where
  record : TeamRecord
  ldap : List String
  oidc : List String
  deriving DecidableEq, Repr

/-- Everything that is stored. -/
structure Inventory where
  permissions : List Permission
  teams : List TeamDescription
  users : List (UserKind × List UserRecord)
  apiKeys : List KeyRecord
  oidcGroups : List OidcGroup
  deriving DecidableEq, Repr

/-- What a command answers. -/
inductive Answer where
  | nothing
  | flag (value : Bool)
  | permission (value : Permission)
  | permissions (values : List Permission)
  | team (value : TeamRecord)
  | teams (values : List TeamRecord)
  | principal (value : PrincipalRecord)
  | users (values : List UserRecord)
  | name (value : String)
  | names (values : List String)
  | ldapMapping (created : Bool) (dn : String) (all : List String)
  | oidcMapping (created : Bool) (all : List String)
  | decision (allowed : Bool)
  | inventory (value : Inventory)
  deriving DecidableEq, Repr

/-- An answer, or nothing for none. -/
def Answer.ofOption {α : Type} (f : α → Answer) : Option α → Answer
  | none => .nothing
  | some a => f a

/-- What became of a step, and the events that it recorded. -/
structure StepResult where
  outcome : Except Failure Answer
  events : List Event

/-- A step in a session of its own, or steps that share a session. -/
inductive Entry where
  | single (step : Step)
  | transaction (steps : List Step) (commit : Bool)

/-- What became of an entry. -/
inductive EntryResult where
  | single (result : StepResult)
  | transaction (results : List StepResult) (committed : Bool)

end TeamAccess
