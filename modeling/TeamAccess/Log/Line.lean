import TeamAccess.Failure
import TeamAccess.Json.Printer
import TeamAccess.Log.Threshold

/-! # Log lines

An event is printed as one line of JSON. Its fields are those of the context, overridden by those
bound to the logger, overridden by those of the call. Event, level, logger and time are always the
pipeline's own; the name of the service gives way to a field of that name. One field is taken for
the record that the logger's name is looked up in.
-/

namespace TeamAccess.Log

/-- A call of a logger. -/
structure Call where
  level : Level
  event : String
  fields : List (String × Json)

/-- What surrounds the calls of a logger. -/
structure Setup where
  serviceName : String
  level : String
  logger : String
  bound : List (String × Json)
  context : List (String × Json)

/-- Sets members one after the other. -/
def merge (base later : List (String × Json)) : List (String × Json) :=
  later.foldl (fun acc m => Json.setMember m.1 m.2 acc) base

/-- Sets a member unless it is there. -/
def setDefault (name : String) (value : Json) (members : List (String × Json)) :
    List (String × Json) :=
  match Json.member? name members with
  | some _ => members
  | none => members ++ [(name, value)]

/-- The name that a logger without a name goes by. -/
def Setup.loggerName (s : Setup) : String := if s.logger = "" then "root" else s.logger

/-- The fields that a call is made with. -/
def given (setup : Setup) (call : Call) : List (String × Json) :=
  merge (merge setup.context setup.bound) call.fields

/-- The members of the line of a call at a time. -/
def members (setup : Setup) (time : Json) (call : Call) : List (String × Json) :=
  let own := merge (given setup call)
    [("event", .str call.event), ("level", .str call.level.name),
      ("logger", .str setup.loggerName), ("timestamp", time)]
  setDefault "service" (.str setup.serviceName) own

/-- Why the calls of a logger come to nothing. -/
inductive Refusal where
  | level (error : NoLevel)
  | record (value : Json)

/-- The failure in words. -/
def Refusal.message : Refusal → String
  | .level error => error.message
  | .record value => s!"'{Failure.typeName value}' object has no attribute 'name'"

/-- The field that is taken for a record, unless it is null. -/
def recordField : String := "_record"

/-- The text of the line of a call. -/
def text (setup : Setup) (time : Json) (call : Call) : String :=
  (Json.obj (members setup time call)).render .spaced

/-- The line of a call. -/
def line (setup : Setup) (time : Json) (call : Call) : Except Refusal String :=
  match Json.member? recordField (given setup call) with
  | none | some .null => .ok (text setup time call)
  | some value => .error (.record value)

/-- The calls that weigh enough for the configured level. -/
def kept (setup : Setup) (calls : List Call) : Except NoLevel (List Call) := do
  let least ← threshold setup.level
  return calls.filter fun call => least ≤ call.level.weight

/-- The lines that some calls print. -/
def lines (setup : Setup) (time : Json) (calls : List Call) : Except Refusal (List String) := do
  (← (kept setup calls).mapError .level).mapM (line setup time)

end TeamAccess.Log
