import TeamAccess.Json.Basic
import TeamAccess.Store.Fault
import TeamAccess.Text.Quoted
import TeamAccess.Token.Issue

/-! # Failures

Why an operation gives no answer. A failure of the store is either reported as the store reports it
or, by the services, as the store being unavailable, with the same words.
-/

namespace TeamAccess

/-- What was looked for and not found. -/
inductive Entity where
  | principal
  | team
  deriving DecidableEq, Repr

/-- The name of an entity. -/
def Entity.name : Entity → String
  | .principal => "principal"
  | .team => "team"

/-- Something that a request or a step names by its name. -/
inductive Named where
  | principal (kind : PrincipalKind) (name : String)
  | team (name : String)
  | permission (name : String)
  | oidcGroup (name : String)
  deriving DecidableEq, Repr

/-- What is named, in words. -/
def Named.text : Named → String
  | .principal kind name => s!"principal {kind.text}:{name}"
  | .team name => s!"team {name}"
  | .permission name => s!"permission {name}"
  | .oidcGroup name => s!"oidc_group {name}"

/-- Why an operation gives no answer. -/
inductive Failure where
  | store (fault : StoreFault)
  | unavailable (reason : String)
  | notFound (entity : Entity) (identifier : String)
  | unknownKind (text : String)
  | unknownSource (text : String)
  | notAUserKind (kind : PrincipalKind)
  | notSynchronized (kind : PrincipalKind)
  | loneText
  | notACollection (value : Json)
  | unknownAttribute (kind : UserKind) (name : String)
  | noDirectGrants
  | nobody (asked : String)
  | unresolved (what : Named)
  | interrupted (reason : String)
  | refused (status : Nat) (detail : String)
  | issue (error : Token.IssueError)
  | key (fault : Token.KeyFault)

namespace Failure

/-- The name of a user record of a kind. -/
def recordName : UserKind → String
  | .managed => "ManagedUser"
  | .ldap => "LdapUser"
  | .oidc => "OidcUser"

/-- The name of the type of a JSON value. -/
def typeName : Json → String
  | .null => "NoneType"
  | .bool _ => "bool"
  | .int _ => "int"
  | .decimal _ | .notANumber | .infinity _ => "float"
  | .str _ => "str"
  | .arr _ => "list"
  | .obj _ => "dict"

/-- The failure in words. -/
def message : Failure → String
  | .store fault => fault.message
  | .unavailable reason => reason
  | .notFound entity identifier => s!"{entity.name} not found: {identifier}"
  | .unknownKind text => Text.Quoted.quote text ++ " is not a valid PrincipalKind"
  | .unknownSource text => Text.Quoted.quote text ++ " is not a valid GroupSource"
  | .notAUserKind kind => s!"not a user principal kind: {kind.text}"
  | .notSynchronized kind => s!"team membership is not synchronized for {kind.text} principals"
  | .loneText => "asserted_groups must be a collection of identifiers, not a string"
  | .notACollection value => s!"'{typeName value}' object is not iterable"
  | .unknownAttribute kind name =>
    s!"{Text.Quoted.quote name} is an invalid keyword argument for {recordName kind}"
  | .noDirectGrants => "'ApiKey' object has no attribute 'permissions'"
  | .nobody asked => s!"'{typeName .null}' object has no attribute '{asked}'"
  | .unresolved what => what.text
  | .interrupted reason => reason
  | .refused _ detail => detail
  | .issue error => error.message
  | .key fault => fault.message

end Failure

end TeamAccess
