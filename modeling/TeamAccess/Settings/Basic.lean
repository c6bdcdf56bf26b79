import TeamAccess.Text.Quoted
import TeamAccess.Token.Basic

/-! # Settings

What an installation configures. The printed form leaves the secret of the tokens out.
-/

namespace TeamAccess

/-- Where the service runs. -/
inductive Environment where
  | dev
  | test
  | prod
  deriving DecidableEq, Repr

/-- The name of an environment. -/
def Environment.text : Environment → String
  | .dev => "dev"
  | .test => "test"
  | .prod => "prod"

/-- The environment of a name. -/
def Environment.ofText? : String → Option Environment
  | "dev" => some .dev
  | "test" => some .test
  | "prod" => some .prod
  | _ => none

/-- The settings of an installation. -/
structure Settings where
  env : Environment := .dev
  serviceName : String := "team-authz"
  logLevel : String := "INFO"
  apiHost : String := "0.0.0.0"
  apiPort : Int := 8080
  jwtAlg : String := "HS256"
  jwtIssuer : String := "team-authz"
  jwtAudience : String := "team-authz-api"
  jwtSecret : String := "dev-secret-change-me"
  databaseUrl : String := "sqlite+aiosqlite:///./team_authz.db"
  bootstrapAdmin : Option String := none
  deriving DecidableEq, Repr

namespace Settings

/-- What tokens are issued and checked with. -/
def tokenConfig (s : Settings) : Token.Config :=
  ⟨s.jwtAlg, s.jwtIssuer, s.jwtAudience, s.jwtSecret⟩

/-- The printed form. -/
def display (s : Settings) : String :=
  let quote := Text.Quoted.quote
  let admin := match s.bootstrapAdmin with
    | none => "None"
    | some name => quote name
  let shown : List (String × String) :=
    [("env", quote s.env.text), ("service_name", quote s.serviceName),
      ("log_level", quote s.logLevel), ("api_host", quote s.apiHost),
      ("api_port", toString s.apiPort), ("jwt_alg", quote s.jwtAlg),
      ("jwt_issuer", quote s.jwtIssuer), ("jwt_audience", quote s.jwtAudience),
      ("database_url", quote s.databaseUrl), ("bootstrap_admin_username", admin)]
  let fields := shown.map fun (name, value) => name ++ "=" ++ value
  "Settings(" ++ String.intercalate ", " fields ++ ")"

end Settings

end TeamAccess
