import TeamAccess.Http.Route
import TeamAccess.Settings.Load

/-! # Launch

What is handed to the process that serves the application: where it listens, what the application
calls itself, and its routes.
-/

namespace TeamAccess

/-- What is handed to the serving process. -/
structure Launch where
  host : String
  port : Int
  title : String
  version : String
  env : Environment
  routes : List (String × String)

namespace Launch

/-- The routes as pairs of a method in lower case and a path, sorted. -/
def sortedRoutes : List (String × String) :=
  let pairs := Http.Route.all.map fun r => (r.method.map Char.toLower, r.path)
  pairs.mergeSort fun a b => decide (a.1 < b.1 ∨ a.1 = b.1 ∧ a.2 ≤ b.2)

/-- What an environment makes of the application. -/
def ofEnvironment (env : List (String × String)) : Except (List Complaint) Launch := do
  let settings ← Settings.load env []
  return ⟨settings.apiHost, settings.apiPort, "Team Authorization Service", "0.1.0", settings.env,
    sortedRoutes⟩

end Launch

end TeamAccess
