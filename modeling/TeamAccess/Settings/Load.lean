import TeamAccess.Settings.Basic
import TeamAccess.Validation

/-! # Loading settings

A setting is given directly, by an environment variable or by its default, in this order. The names
of variables are compared without regard to case, and the last variable of a name counts. All
defects are reported: those of known settings in their order, then the unknown names.
-/

namespace TeamAccess.Settings

/-- What every environment variable begins with. -/
def variablePrefix : String := "team_authz_"

/-- The names of the settings, in order. -/
def names : List String :=
  ["env", "service_name", "log_level", "api_host", "api_port", "jwt_alg", "jwt_issuer",
    "jwt_audience", "jwt_secret", "database_url", "bootstrap_admin_username"]

/-- The value of an environment variable. -/
def fromEnvironment? (env : List (String × String)) (name : String) : Option String :=
  (env.reverse.find? fun v => v.1.map Char.toLower = variablePrefix ++ name).map (·.2)

/-- The value that a setting is given, unless it has its default. -/
def given? (env : List (String × String)) (direct : List (String × Json)) (name : String) :
    Option Json :=
  match Json.member? name direct with
  | some value => some value
  | none => (fromEnvironment? env name).map .str

/-- Sets a setting to a value. -/
def set (s : Settings) (name : String) (value : Json) : Except Defect Settings := do
  match name with
  | "env" =>
    match value.text?.bind Environment.ofText? with
    | some env => return { s with env }
    | none => throw .notLiteral
  | "service_name" => return { s with serviceName := ← Validation.text value }
  | "log_level" => return { s with logLevel := ← Validation.text value }
  | "api_host" => return { s with apiHost := ← Validation.text value }
  | "api_port" => return { s with apiPort := ← Validation.integer value }
  | "jwt_alg" => return { s with jwtAlg := ← Validation.text value }
  | "jwt_issuer" => return { s with jwtIssuer := ← Validation.text value }
  | "jwt_audience" => return { s with jwtAudience := ← Validation.text value }
  | "jwt_secret" => return { s with jwtSecret := ← Validation.text value }
  | "database_url" => return { s with databaseUrl := ← Validation.text value }
  | "bootstrap_admin_username" => return { s with bootstrapAdmin := ← Validation.text? value }
  | _ => throw .extraForbidden

/-- The settings so far and the complaints so far, after one more value. -/
def accept (state : Settings × List Complaint) (name : String) (value : Json) :
    Settings × List Complaint :=
  match state.1.set name value with
  | .ok s => (s, state.2)
  | .error defect => (state.1, state.2 ++ [⟨defect, [.name name]⟩])

/-- The settings that an environment and directly given values make. -/
def load (env : List (String × String)) (direct : List (String × Json)) :
    Except (List Complaint) Settings :=
  let known := names.filterMap fun name => (given? env direct name).map (name, ·)
  let unknown := direct.filter fun member => member.1 ∉ names
  match (known ++ unknown).foldl (fun state v => accept state v.1 v.2) ({}, []) with
  | (s, []) => .ok s
  | (_, complaints) => .error complaints

end TeamAccess.Settings
