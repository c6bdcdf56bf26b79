import TeamAccess.DatabaseUrl
import TeamAccess.Migration.Schema
import TeamAccess.Settings.Load

/-! # Target of a migration

A migration takes the database from its own environment variable, whose name is compared exactly, or
else from the settings. It connects without the asynchronous drivers.
-/

namespace TeamAccess.Migration

/-- Why a migration cannot start. -/
inductive TargetError where
  | settings (complaints : List Complaint)
  | url (error : DatabaseUrl.UrlError)
  | dialect (name : String)
  deriving DecidableEq, Repr

/-- The exact name of the variable. -/
def urlVariable : String := "TEAM_AUTHZ_DATABASE_URL"

/-- The URL that a migration starts from. -/
def rawUrl (env : List (String × String)) : Except TargetError String :=
  match ((env.reverse.find? (·.1 = urlVariable)).map (·.2)).filter (· != "") with
  | some url => .ok url
  | none => ((Settings.load env []).map (·.databaseUrl)).mapError .settings

/-- The driver that a migration uses in the place of an asynchronous one. -/
def syncDriver : String → String
  | "sqlite+aiosqlite" => "sqlite"
  | "postgresql+asyncpg" => "postgresql"
  | driver => driver

/-- The URL that a migration connects to, from the one that it starts from. -/
def connectUrl (raw : String) : Except DatabaseUrl.UrlError String := do
  let url ← DatabaseUrl.parse raw
  return { url with driver := syncDriver url.driver }.render

/-- The dialects and their drivers. -/
def dialects : List (String × List String) :=
  [("sqlite", ["pysqlite", "aiosqlite", "pysqlcipher"]),
    ("postgresql", ["psycopg2", "psycopg", "asyncpg", "pg8000", "psycopg2cffi"]),
    ("mysql", ["mysqldb", "pymysql", "mysqlconnector", "aiomysql", "asyncmy", "cymysql", "pyodbc",
      "mariadbconnector"]),
    ("mariadb", ["mysqldb", "pymysql", "mysqlconnector", "aiomysql", "asyncmy", "cymysql", "pyodbc",
      "mariadbconnector"]),
    ("oracle", ["cx_oracle", "oracledb"]), ("mssql", ["pyodbc", "pymssql", "aioodbc"])]

/-- The dialect of a driver. -/
def dialectOf (driver : String) : Except TargetError String :=
  let dialect := String.ofList (driver.toList.takeWhile (· != '+'))
  let variant := String.ofList ((driver.toList.dropWhile (· != '+')).drop 1)
  let known := dialects.any fun d => d.1 = dialect && (variant = "" || d.2.contains variant)
  if known then .ok dialect
  else .error (.dialect (driver.map fun c => if c = '+' then '.' else c))

/-- Where a migration goes. -/
structure Target where
  dialect : String
  url : String
  deriving DecidableEq, Repr

/-- The target that an environment names. -/
def target (env : List (String × String)) : Except TargetError Target := do
  let url ← (connectUrl (← rawUrl env)).mapError .url
  let parsed ← (DatabaseUrl.parse url).mapError .url
  return ⟨← dialectOf parsed.driver, url⟩

/-- The failure in words, where it is not a list of complaints. -/
def TargetError.message : TargetError → String
  | .settings _ => "invalid settings"
  | .url error => error.message
  | .dialect name => s!"Can't load plugin: sqlalchemy.dialects:{name}"

end TeamAccess.Migration
