import TeamAccess.Http.Message

/-! # Routes

A route is a method and a path with parameters. A parameter stands for one segment that is not
empty; a path that ends in a fixed segment may be followed by a line break. The first route that
fits the path and the method answers; a path that fits other methods only is refused with those of
the first route.
-/

namespace TeamAccess.Http

/-- What a request asks for. -/
inductive Endpoint where
  | health
  | readiness
  | mintToken
  | whoAmI
  | myPermissions
  | createPermission
  | listPermissions
  | createTeam
  | listTeams
  | renameTeam
  | grantTeamPermission
  | revokeTeamPermission
  | createTeamApiKey
  | regenerateApiKey
  | teamMappings
  | mapLdapGroup
  | unmapLdapGroup
  | mapOidcGroup
  | unmapOidcGroup
  | createOidcGroup
  | listOidcGroups
  | createUser
  | listUsers
  | grantUserPermission
  | addUserToTeam
  | removeUserFromTeam
  | synchronizeUser
  deriving DecidableEq, Repr

/-- Who may use an endpoint. -/
inductive Access where
  | anyone
  | principal
  | administrator
  deriving DecidableEq, Repr

/-- Who may use an endpoint. -/
def Endpoint.access : Endpoint → Access
  | .health | .readiness | .mintToken => .anyone
  | .whoAmI | .myPermissions => .principal
  | _ => .administrator

/-- Whether an endpoint reads a body. -/
def Endpoint.takesBody : Endpoint → Bool
  | .mintToken | .createPermission | .createTeam | .renameTeam | .regenerateApiKey
  | .mapLdapGroup | .mapOidcGroup | .createOidcGroup | .createUser | .synchronizeUser => true
  | _ => false

/-- A segment of a route's path. -/
inductive Part where
  | fixed (text : String)
  | parameter (name : String)
  deriving DecidableEq, Repr

/-- A segment as it is written. -/
def Part.text : Part → String
  | .fixed s => s
  | .parameter name => "\x7b" ++ name ++ "\x7d"

/-- A route. -/
structure Route where
  method : String
  parts : List Part
  endpoint : Endpoint
  deriving DecidableEq, Repr

/-- The values of the parameters of a path. -/
abbrev Parameters := List (String × String)

namespace Route

/-- The path of a route as it is written. -/
def path (r : Route) : String := String.join (r.parts.map fun p => "/" ++ p.text)

/-- The parameters of a path that is cut into segments. -/
def matchParts : List Part → List (List Char) → Option Parameters
  | [], [] => some []
  | [.fixed s], [segment] =>
    if segment = s.toList ∨ segment = s.toList ++ ['\n'] then some [] else none
  | .fixed s :: parts, segment :: segments =>
    if segment = s.toList then matchParts parts segments else none
  | .parameter name :: parts, segment :: segments =>
    if segment.isEmpty then none
    else (matchParts parts segments).map ((name, String.ofList segment) :: ·)
  | _, _ => none

/-- The parameters of a path that fits a route. -/
def fits? (r : Route) (path : List Char) : Option Parameters :=
  match Text.splitAll '/' path with
  | [] :: segments => matchParts r.parts segments
  | _ => none

/-- The segments below the root of the administration. -/
def admin (parts : List Part) : List Part := .fixed "v1" :: .fixed "admin" :: parts

/-- The segments of a team. -/
def team (parts : List Part) : List Part :=
  admin (.fixed "teams" :: .parameter "team_id" :: parts)

/-- The segments of the users of a kind. -/
def users (parts : List Part) : List Part := admin (.fixed "users" :: .parameter "kind" :: parts)

/-- All routes. -/
def all : List Route := [
  ⟨"GET", [.fixed "healthz"], .health⟩,
  ⟨"GET", [.fixed "readyz"], .readiness⟩,
  ⟨"POST", [.fixed "v1", .fixed "dev", .fixed "token"], .mintToken⟩,
  ⟨"GET", [.fixed "v1", .fixed "me"], .whoAmI⟩,
  ⟨"GET", [.fixed "v1", .fixed "me", .fixed "permissions"], .myPermissions⟩,
  ⟨"POST", admin [.fixed "permissions"], .createPermission⟩,
  ⟨"GET", admin [.fixed "permissions"], .listPermissions⟩,
  ⟨"POST", admin [.fixed "teams"], .createTeam⟩,
  ⟨"GET", admin [.fixed "teams"], .listTeams⟩,
  ⟨"PATCH", team [], .renameTeam⟩,
  ⟨"PUT", team [.fixed "permissions", .parameter "name"], .grantTeamPermission⟩,
  ⟨"DELETE", team [.fixed "permissions", .parameter "name"], .revokeTeamPermission⟩,
  ⟨"POST", team [.fixed "api-keys"], .createTeamApiKey⟩,
  ⟨"POST", admin [.fixed "api-keys", .fixed "regenerate"], .regenerateApiKey⟩,
  ⟨"GET", team [.fixed "mappings"], .teamMappings⟩,
  ⟨"POST", team [.fixed "mappings", .fixed "ldap"], .mapLdapGroup⟩,
  ⟨"DELETE", team [.fixed "mappings", .fixed "ldap"], .unmapLdapGroup⟩,
  ⟨"POST", team [.fixed "mappings", .fixed "oidc"], .mapOidcGroup⟩,
  ⟨"DELETE", team [.fixed "mappings", .fixed "oidc"], .unmapOidcGroup⟩,
  ⟨"POST", admin [.fixed "oidc-groups"], .createOidcGroup⟩,
  ⟨"GET", admin [.fixed "oidc-groups"], .listOidcGroups⟩,
  ⟨"POST", users [], .createUser⟩,
  ⟨"GET", users [], .listUsers⟩,
  ⟨"PUT", users [.parameter "username", .fixed "permissions", .parameter "name"],
    .grantUserPermission⟩,
  ⟨"PUT", users [.parameter "username", .fixed "teams", .parameter "team_id"], .addUserToTeam⟩,
  ⟨"DELETE", users [.parameter "username", .fixed "teams", .parameter "team_id"],
    .removeUserFromTeam⟩,
  ⟨"POST", users [.parameter "username", .fixed "sync"], .synchronizeUser⟩]

/-- Where a request goes. -/
inductive Target where
  | endpoint (endpoint : Endpoint) (parameters : Parameters)
  | otherMethod (allowed : String)
  | redirect (path : List Char)
  | nowhere
  deriving DecidableEq, Repr

/-- The path without the slashes at its end, or with one if it has none. -/
def toggleSlash (path : List Char) : List Char :=
  if path.getLast? = some '/' then (path.reverse.dropWhile (· = '/')).reverse else path ++ ['/']

/-- The first route that fits a path and a method. -/
def matching? (method : String) (path : List Char) : Option (Endpoint × Parameters) :=
  all.findSome? fun r => if r.method = method then (r.fits? path).map (r.endpoint, ·) else none

/-- Whether some route fits a path. -/
def known (path : List Char) : Bool := all.any fun r => (r.fits? path).isSome

/-- Where a request for a path goes. -/
def target (method : String) (path : List Char) : Target :=
  match matching? method path with
  | some (endpoint, parameters) => .endpoint endpoint parameters
  | none =>
    match all.find? fun r => (r.fits? path).isSome with
    | some r => .otherMethod r.method
    | none =>
      if path ≠ ['/'] ∧ known (toggleSlash path) then .redirect (toggleSlash path) else .nowhere

end Route

end TeamAccess.Http
