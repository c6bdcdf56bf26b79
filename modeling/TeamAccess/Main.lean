import TeamAccess.Json.Printer
import TeamAccess.Launch

/-! # Command line

Prints what the environment makes of the application, or what is wrong with the settings.
-/

namespace TeamAccess

/-- The variables of the environment that name settings. -/
def settingVariables : IO (List (String × String)) :=
  Settings.names.filterMapM fun name => do
    let variableName := "TEAM_AUTHZ_" ++ name.map Char.toUpper
    return (← IO.getEnv variableName).map (variableName, ·)

/-- The launch as JSON. -/
def Launch.toJson (l : Launch) : Json :=
  .obj [("title", .str l.title), ("version", .str l.version), ("env", .str l.env.text),
    ("host", .str l.host), ("port", .int l.port),
    ("routes", .arr (l.routes.map fun r => .texts [r.1, r.2]))]

/-- A complaint as JSON. -/
def Complaint.toJson (c : Complaint) : Json :=
  let place : Place → Json
    | .name s => .str s
    | .index n => .int n
  .obj [("type", .str c.defect.code), ("loc", .arr (c.path.map place))]

end TeamAccess

open TeamAccess in
/-- Prints the launch, or the complaints about the settings. -/
def main : IO UInt32 := do
  match Launch.ofEnvironment (← settingVariables) with
  | .ok launch =>
    IO.println (launch.toJson.render .spaced)
    return 0
  | .error complaints =>
    IO.eprintln ((Json.arr (complaints.map Complaint.toJson)).render .spaced)
    return 1
