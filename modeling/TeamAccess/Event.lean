import TeamAccess.Json.Basic
import TeamAccess.Log.Level
import TeamAccess.Principal

/-! # Events

What the operations record while they run. API keys appear in events only in their masked form.
-/

namespace TeamAccess

/-- Why a caller is denied. -/
inductive DenialReason where
  | noPrincipal
  | notGranted
  | notFound
  | unavailable
  deriving DecidableEq, Repr

/-- The reason in words. -/
def DenialReason.text : DenialReason → String
  | .noPrincipal => "no_principal"
  | .notGranted => "permission_not_granted"
  | .notFound => "NotFound"
  | .unavailable => "StoreUnavailable"

/-- What became of a membership. -/
inductive EdgeChange where
  | added
  | removed
  | unchanged
  deriving DecidableEq, Repr

/-- A recorded event. -/
inductive Event where
  | startup (env : String)
  | shutdown
  | bootstrapPermission (permission : String)
  | bootstrapAdmin (username : String)
  | membership (change : EdgeChange) (principal : String) (kind : PrincipalKind) (team : String)
  | unresolvedGroup (source : GroupSource) (group : String)
  | syncStarted (principal : String) (source : GroupSource) (asserted : List String)
  | syncTeamUnmapped (principal : String) (source : GroupSource) (team : String)
  | syncGroupNotAsserted (principal : String) (source : GroupSource) (team group : String)
  | syncRemove (principal : String) (source : GroupSource) (team : String)
  | syncAdd (principal : String) (source : GroupSource) (team group : String)
  | syncCompleted (principal : String) (source : GroupSource) (teams : List String)
  | denied (reason : DenialReason) (subject : Option (PrincipalKind × String))
      (required : List String)
  | storeUnavailable (error : String)
  | permissionCreated (permission : String)
  | teamCreated (team : String) (withApiKey : Bool)
  | teamPermissionGranted (team permission : String) (changed : Bool)
  | teamPermissionRevoked (team permission : String) (changed : Bool)
  | apiKeyCreated (team maskedKey : String)
  | apiKeyRegenerated (maskedKey : String)
  | ldapGroupMapped (team dn : String)
  | ldapGroupUnmapped (team dn : String) (changed : Bool)
  | oidcGroupMapped (team group : String)
  | oidcGroupUnmapped (team group : String) (changed : Bool)
  | userCreated (kind : UserKind) (username : String)
  | userPermissionGranted (username permission : String) (changed : Bool)
  deriving DecidableEq, Repr

namespace Event

/-- The level of an event. -/
def level : Event → Level
  | .membership .. | .syncStarted .. | .syncTeamUnmapped .. | .syncGroupNotAsserted ..
  | .syncRemove .. | .syncAdd .. => .debug
  | .storeUnavailable _ => .warning
  | _ => .info

/-- The name of an event. -/
def name : Event → String
  | .startup _ => "startup"
  | .shutdown => "shutdown"
  | .bootstrapPermission _ => "bootstrap_permission_created"
  | .bootstrapAdmin _ => "bootstrap_admin_created"
  | .membership .added .. => "membership_added"
  | .membership .removed .. => "membership_removed"
  | .membership .unchanged .. => "membership_unchanged"
  | .unresolvedGroup .. => "unresolved_group"
  | .syncStarted .. => "sync_started"
  | .syncTeamUnmapped .. => "sync_team_unmapped"
  | .syncGroupNotAsserted .. => "sync_group_not_asserted"
  | .syncRemove .. => "sync_remove"
  | .syncAdd .. => "sync_add"
  | .syncCompleted .. => "sync_completed"
  | .denied .. => "security_failure"
  | .storeUnavailable _ => "store_unavailable"
  | .permissionCreated _ => "permission_created"
  | .teamCreated .. => "team_created"
  | .teamPermissionGranted .. => "team_permission_granted"
  | .teamPermissionRevoked .. => "team_permission_revoked"
  | .apiKeyCreated .. => "api_key_created"
  | .apiKeyRegenerated _ => "api_key_regenerated"
  | .ldapGroupMapped .. => "ldap_group_mapped"
  | .ldapGroupUnmapped .. => "ldap_group_unmapped"
  | .oidcGroupMapped .. => "oidc_group_mapped"
  | .oidcGroupUnmapped .. => "oidc_group_unmapped"
  | .userCreated .. => "user_created"
  | .userPermissionGranted .. => "user_permission_granted"

/-- The fields that every event of a synchronization carries. -/
def syncFields (principal : String) (source : GroupSource) : List (String × Json) :=
  [("principal", .str principal), ("source", .str source.text)]

/-- The fields of an event. -/
def fields : Event → List (String × Json)
  | .startup env => [("env", .str env)]
  | .shutdown => []
  | .bootstrapPermission permission => [("permission", .str permission)]
  | .bootstrapAdmin username => [("username", .str username)]
  | .membership _ principal kind team =>
    [("principal", .str principal), ("kind", .str kind.text), ("team", .str team)]
  | .unresolvedGroup source group => [("source", .str source.text), ("group", .str group)]
  | .syncStarted principal source asserted =>
    syncFields principal source ++ [("asserted", .texts asserted)]
  | .syncTeamUnmapped principal source team =>
    syncFields principal source ++ [("team", .str team)]
  | .syncGroupNotAsserted principal source team group =>
    syncFields principal source ++ [("team", .str team), ("group", .str group)]
  | .syncRemove principal source team => syncFields principal source ++ [("team", .str team)]
  | .syncAdd principal source team group =>
    syncFields principal source ++ [("team", .str team), ("group", .str group)]
  | .syncCompleted principal source teams =>
    syncFields principal source ++ [("teams", .texts teams)]
  | .denied reason none required =>
    [("reason", .str reason.text), ("required", .texts required)]
  | .denied reason (some (kind, subject)) required =>
    [("reason", .str reason.text), ("principal", .str subject), ("kind", .str kind.text),
      ("required", .texts required)]
  | .storeUnavailable error => [("error", .str error)]
  | .permissionCreated permission => [("permission", .str permission)]
  | .teamCreated team withApiKey => [("team", .str team), ("with_api_key", .bool withApiKey)]
  | .teamPermissionGranted team permission changed
  | .teamPermissionRevoked team permission changed =>
    [("team", .str team), ("permission", .str permission), ("changed", .bool changed)]
  | .apiKeyCreated team maskedKey => [("team", .str team), ("api_key", .str maskedKey)]
  | .apiKeyRegenerated maskedKey => [("api_key", .str maskedKey)]
  | .ldapGroupMapped team dn => [("team", .str team), ("dn", .str dn)]
  | .ldapGroupUnmapped team dn changed =>
    [("team", .str team), ("dn", .str dn), ("changed", .bool changed)]
  | .oidcGroupMapped team group => [("team", .str team), ("group", .str group)]
  | .oidcGroupUnmapped team group changed =>
    [("team", .str team), ("group", .str group), ("changed", .bool changed)]
  | .userCreated kind username => [("kind", .str kind.text), ("username", .str username)]
  | .userPermissionGranted username permission changed =>
    [("username", .str username), ("permission", .str permission), ("changed", .bool changed)]

end Event

end TeamAccess
