import TeamAccess.Credential
import TeamAccess.Http.Route
import TeamAccess.Service.Bootstrap
import TeamAccess.Service.Decision
import TeamAccess.Settings.Basic

/-! # The gate

Credentials that are missing or rejected are refused with 401. A caller that is unknown, or about
whom the store cannot answer, is nobody; nobody, and whoever lacks the permission to administer, is
refused with 403 without a reason.
-/

namespace TeamAccess.Http

open TeamAccess.Action

namespace Gate

/-- The refusal of a caller that may not proceed. -/
def forbidden : Failure := .refused 403 "Forbidden"

/-- Whom the credentials of a request name. -/
def caller (settings : Settings) (request : Request) : Action CallerRef :=
  let config := settings.tokenConfig
  match CallerRef.ofCredentials config request.now request.bearer? request.apiKey? with
  | .ok ref => pure ref
  | .error (.key fault) => throw (.key fault)
  | .error e => throw (.refused 401 e.message)

/-- The stored principal of a caller, or nobody. -/
def principal? (ref : CallerRef) : Action (Option PrincipalRecord) :=
  tryCatch (guarded (Principals.resolve? ref.kind ref.identifier)) fun
    | .unavailable _ => return none
    | failure => throw failure

/-- A caller that has to be a stored principal. -/
def requirePrincipal (settings : Settings) (request : Request) : Action PrincipalRecord := do
  match ← principal? (← caller settings request) with
  | some principal => return principal
  | none => throw forbidden

/-- A caller that has to hold the permission to administer. -/
def requireAdministrator (settings : Settings) (request : Request) : Action PrincipalRecord := do
  let principal ← principal? (← caller settings request)
  let decision ← Decision.authorize (principal.map (·.handle)) [Bootstrap.accessManagement]
  match decision, principal with
  | .allow, some principal => return principal
  | _, _ => throw forbidden

/-- The caller that gets past the gate of an endpoint, if the endpoint asks for one. -/
def pass (settings : Settings) (request : Request) : Access → Action (Option PrincipalRecord)
  | .anyone => return none
  | .principal => return some (← requirePrincipal settings request)
  | .administrator => return some (← requireAdministrator settings request)

end Gate

end TeamAccess.Http
