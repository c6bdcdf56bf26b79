import TeamAccess.Http.Route
import TeamAccess.Json.Parser
import TeamAccess.Uuid
import TeamAccess.Validation

/-! # Calls

A call is what a request asks for once its parameters and its body have been checked. All complaints
are collected: about the path, then about the query, then about the body.
-/

namespace TeamAccess.Http

/-- A checked request. -/
inductive Call where
  | health
  | readiness
  | mintToken (subject : String) (kind : PrincipalKind) (minutes : Int)
  | whoAmI
  | myPermissions
  | createPermission (name : String) (description : Option String)
  | listPermissions
  | createTeam (name : String) (withApiKey : Bool)
  | listTeams
  | renameTeam (team : Uuid) (name : String)
  | grantTeamPermission (team : Uuid) (name : String)
  | revokeTeamPermission (team : Uuid) (name : String)
  | createTeamApiKey (team : Uuid)
  | regenerateApiKey (key : String)
  | teamMappings (team : Uuid)
  | mapLdapGroup (team : Uuid) (dn : String)
  | unmapLdapGroup (team : Uuid) (dn : String)
  | mapOidcGroup (team : Uuid) (group : String)
  | unmapOidcGroup (team : Uuid) (group : String)
  | createOidcGroup (name : String)
  | listOidcGroups
  | createUser (kind : PrincipalKind) (username : String)
      (fullname email dn subjectIdentifier : Option String)
  | listUsers (kind : PrincipalKind)
  | grantUserPermission (kind : PrincipalKind) (username name : String)
  | addUserToTeam (kind : PrincipalKind) (username : String) (team : Uuid)
  | removeUserFromTeam (kind : PrincipalKind) (username : String) (team : Uuid)
  | synchronizeUser (kind : PrincipalKind) (username : String) (groups : List String)
  deriving DecidableEq, Repr

/-- What a body holds. -/
inductive Payload where
  | absent
  | json (value : Json)
  | raw

/-- A checked value, or all complaints about it. -/
abbrev Checked (α : Type) := Except (List Complaint) α

namespace Checked

variable {α β : Type}

/-- Applies a checked function to a checked value. -/
def ap (f : Checked (α → β)) (a : Checked α) : Checked β :=
  match f, a with
  | .ok f, .ok a => .ok (f a)
  | .ok _, .error e => .error e
  | .error e, .ok _ => .error e
  | .error e, .error e' => .error (e ++ e')

/-- A value that is fine. -/
def fine (a : α) : Checked α := .ok a

/-- Puts a check at its place. -/
def placed (path : List Place) (result : Except Defect α) : Checked α :=
  result.mapError fun defect => [⟨defect, path⟩]

end Checked

open Checked

namespace Call

variable {α : Type}

/-- The text of a path parameter. -/
def pathText (parameters : Parameters) (name : String) : String :=
  ((parameters.find? (·.1 = name)).map (·.2)).getD ""

/-- The team of a path. -/
def pathTeam (parameters : Parameters) : Checked Uuid :=
  match Uuid.parse? (pathText parameters "team_id") with
  | some id => .ok id
  | none => .error [⟨.notUuid, [.name "path", .name "team_id"]⟩]

/-- The kind of principals of a path. -/
def pathKind (parameters : Parameters) : Checked PrincipalKind :=
  match PrincipalKind.ofText? (pathText parameters "kind") with
  | some kind => .ok kind
  | none => .error [⟨.notListed, [.name "path", .name "kind"]⟩]

/-- A required parameter of a query. -/
def queryText (request : Request) (name : String) : Checked String :=
  match request.parameter? name with
  | some value => .ok value
  | none => .error [⟨.missing, [.name "query", .name name]⟩]

/-- A field of a body. -/
def field (members : List (String × Json)) (name : String) (otherwise : Except Defect α)
    (check : Json → Except Defect α) : Checked α :=
  Checked.placed [.name "body", .name name] <|
    match Json.member? name members with
    | some value => check value
    | none => otherwise

/-- A required text of at least one character. -/
def nameField (members : List (String × Json)) (name : String) (most : Option Nat) :
    Checked String :=
  field members name (.error .missing) (Validation.boundedText 1 most)

/-- An optional text. -/
def optionalField (members : List (String × Json)) (name : String) : Checked (Option String) :=
  field members name (.ok none) Validation.text?

/-- The kind of a principal in a body. -/
def kindOf (value : Json) : Except Defect PrincipalKind :=
  match value.text?.bind PrincipalKind.ofText? with
  | some kind => .ok kind
  | none => .error .notListed

/-- The texts of a list whose first item stands at position `i`, with a complaint about each item
that is none. -/
def itemTexts (i : Nat) : List Json → Checked (List String)
  | [] => fine []
  | item :: rest =>
    (fine List.cons).ap
        (placed [.name "body", .name "groups", .index i] (Validation.text item))
      |>.ap (itemTexts (i + 1) rest)

/-- The groups of a body. -/
def groupsField (members : List (String × Json)) : Checked (List String) :=
  match Json.member? "groups" members with
  | none => .ok []
  | some (.arr items) => itemTexts 0 items
  | some _ => .error [⟨.notList, [.name "body", .name "groups"]⟩]

/-- The call in the members of a body, which has to be an object. -/
def ofObject (payload : Payload) (build : List (String × Json) → Checked α) : Checked α :=
  match payload with
  | .absent => .error [⟨.missing, [.name "body"]⟩]
  | .json (.obj members) => build members
  | _ => .error [⟨.notAnObject, [.name "body"]⟩]

/-- The call that a request makes. -/
def ofRequest (endpoint : Endpoint) (parameters : Parameters) (request : Request)
    (payload : Payload) : Checked Call :=
  let team := pathTeam parameters
  let kind := pathKind parameters
  let name := pathText parameters "name"
  let username := pathText parameters "username"
  match endpoint with
  | .health => .ok .health
  | .readiness => .ok .readiness
  | .mintToken => ofObject payload fun m =>
    (fine mintToken).ap (nameField m "subject" (some 255))
      |>.ap (field m "kind" (.ok (.user .managed)) kindOf)
      |>.ap (field m "ttl_minutes" (.ok 60) (Validation.boundedInteger 1 1440))
  | .whoAmI => .ok .whoAmI
  | .myPermissions => .ok .myPermissions
  | .createPermission => ofObject payload fun m =>
    (fine createPermission).ap (nameField m "name" (some 255)) |>.ap (optionalField m "description")
  | .listPermissions => .ok .listPermissions
  | .createTeam => ofObject payload fun m =>
    (fine createTeam).ap (nameField m "name" (some 255))
      |>.ap (field m "create_api_key" (.ok false) Validation.flag)
  | .listTeams => .ok .listTeams
  | .renameTeam =>
    (fine renameTeam).ap team |>.ap (ofObject payload (nameField · "name" (some 255)))
  | .grantTeamPermission => (fine (grantTeamPermission · name)).ap team
  | .revokeTeamPermission => (fine (revokeTeamPermission · name)).ap team
  | .createTeamApiKey => (fine createTeamApiKey).ap team
  | .regenerateApiKey =>
    (fine regenerateApiKey).ap (ofObject payload (nameField · "key" none))
  | .teamMappings => (fine teamMappings).ap team
  | .mapLdapGroup =>
    (fine mapLdapGroup).ap team |>.ap (ofObject payload (nameField · "dn" (some 1024)))
  | .unmapLdapGroup => (fine unmapLdapGroup).ap team |>.ap (queryText request "dn")
  | .mapOidcGroup =>
    (fine mapOidcGroup).ap team |>.ap (ofObject payload (nameField · "group" (some 1024)))
  | .unmapOidcGroup => (fine unmapOidcGroup).ap team |>.ap (queryText request "group")
  | .createOidcGroup =>
    (fine createOidcGroup).ap (ofObject payload (nameField · "name" (some 1024)))
  | .listOidcGroups => .ok .listOidcGroups
  | .createUser =>
    (fine fun kind (build : PrincipalKind → Call) => build kind).ap kind
      |>.ap (ofObject payload fun m =>
        (fine fun username fullname email dn subject kind =>
            createUser kind username fullname email dn subject).ap
          (nameField m "username" (some 255))
          |>.ap (optionalField m "fullname") |>.ap (optionalField m "email")
          |>.ap (optionalField m "dn") |>.ap (optionalField m "subject_identifier"))
  | .listUsers => (fine listUsers).ap kind
  | .grantUserPermission => (fine (grantUserPermission · username name)).ap kind
  | .addUserToTeam => (fine (addUserToTeam · username ·)).ap kind |>.ap team
  | .removeUserFromTeam => (fine (removeUserFromTeam · username ·)).ap kind |>.ap team
  | .synchronizeUser =>
    (fine (synchronizeUser · username ·)).ap kind |>.ap (ofObject payload groupsField)

end Call

end TeamAccess.Http
