import TeamAccess.Store.Schema

/-! # Faults of the store

What the store reports when it cannot do what it was asked for: a table is missing, a row would
break a rule of its table, or the store itself gives out.
-/

namespace TeamAccess

/-- A rule that no two rows agree in some columns. -/
inductive UniqueKey where
  | permissionName
  | teamName
  | teamId
  | username (kind : UserKind)
  | apiKeyText
  | oidcGroupName
  | membership (kind : PrincipalKind)
  deriving DecidableEq, Repr

/-- The columns of a rule. -/
def UniqueKey.columns : UniqueKey → String
  | .permissionName => "permissions.name"
  | .teamName => "teams.name"
  | .teamId => "teams.id"
  | .username k => Table.userTable k ++ ".username"
  | .apiKeyText => "api_keys.key"
  | .oidcGroupName => "oidc_groups.name"
  | .membership (.user k) =>
    s!"{Table.userTable k}_teams.user_id, {Table.userTable k}_teams.team_id"
  | .membership .apiKey => "api_keys_teams.api_key_id, api_keys_teams.team_id"

/-- A column that is never empty. -/
inductive RequiredColumn where
  | mappedTeam (source : GroupSource)
  | suspended
  deriving DecidableEq, Repr

/-- The name of a column, with its table. -/
def RequiredColumn.name : RequiredColumn → String
  | .mappedTeam .ldap => "mapped_ldap_groups.team_id"
  | .mappedTeam .oidc => "mapped_oidc_groups.team_id"
  | .suspended => "managed_users.suspended"

/-- What the store reports. -/
inductive StoreFault where
  | noSuchTable (name : String)
  | duplicate (key : UniqueKey)
  | required (column : RequiredColumn)
  | locked
  | malformed
  | poolTimeout
  deriving DecidableEq, Repr

/-- The report in words. -/
def StoreFault.message : StoreFault → String
  | .noSuchTable name => s!"(sqlite3.OperationalError) no such table: {name}"
  | .duplicate key => s!"(sqlite3.IntegrityError) UNIQUE constraint failed: {key.columns}"
  | .required column => s!"(sqlite3.IntegrityError) NOT NULL constraint failed: {column.name}"
  | .locked => "(builtins.Exception) database is locked"
  | .malformed => "(builtins.Exception) database disk image is malformed"
  | .poolTimeout => "QueuePool limit reached"

end TeamAccess
