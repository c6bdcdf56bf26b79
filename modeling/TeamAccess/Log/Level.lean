/-! # Levels of log events -/

namespace TeamAccess

/-- How serious an event is. -/
inductive Level where
  | debug
  | info
  | warning
  | error
  | critical
  deriving DecidableEq, Repr

namespace Level

/-- The name of a level in log lines. -/
def name : Level → String
  | .debug => "debug"
  | .info => "info"
  | .warning => "warning"
  | .error => "error"
  | .critical => "critical"

/-- The level of a name; two levels have a second name. -/
def ofName? : String → Option Level
  | "debug" => some .debug
  | "info" => some .info
  | "warning" | "warn" => some .warning
  | "error" => some .error
  | "critical" | "fatal" => some .critical
  | _ => none

/-- The weight of a level: an event is kept if it weighs at least as much as the threshold. -/
def weight : Level → Nat
  | .debug => 10
  | .info => 20
  | .warning => 30
  | .error => 40
  | .critical => 50

end Level

end TeamAccess
