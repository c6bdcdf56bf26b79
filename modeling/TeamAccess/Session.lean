import TeamAccess.Event
import TeamAccess.Failure
import TeamAccess.Store.Write

/-! # Sessions

A session works on its own copy of the store until it commits; rolling back returns to what was
committed last. An outage makes the calls of one kind fail from some call on. Operations are actions
on a session: they give a result or fail, and keep what they have done to the session either way.
-/

namespace TeamAccess

/-- An access to the store that an outage can hit. -/
inductive StoreCall where
  | createPermission | findPermission | listPermissions
  | userHas | teamHas | directFor | forTeam
  | grantToTeam | revokeFromTeam | grantToUser
  | createUser | findUser | listUsers
  | createApiKey | findApiKey | regenerateApiKey
  | reload | lock | addToTeam | removeFromTeam
  | createTeam | getTeam | findTeam | listTeams | renameTeam
  | createOidcGroup | findOidcGroup | listOidcGroups
  | mapLdap | unmapLdap | teamsForDn | dnsForTeam
  | mapOidc | unmapOidc | teamsForOidcGroup | oidcNamesForTeam
  | addMembership | removeMembership
  | commit
  deriving DecidableEq, Repr

/-- Calls of one kind fail once `after` of them have been made. -/
structure Outage where
  call : StoreCall
  failure : Failure
  after : Nat

/-- The texts of the API keys that are generated next; when the given ones are used up, further ones
are numbered. -/
structure KeySupply where
  given : List String := []
  used : Nat := 0

namespace KeySupply

/-- A number in at least four digits. -/
def padded (n : Nat) : String :=
  let digits := Nat.toDigits 10 n
  String.ofList (List.replicate (4 - digits.length) '0' ++ digits)

/-- The next text, and the supply after it. -/
def next (supply : KeySupply) : String × KeySupply :=
  match supply.given with
  | key :: rest => (key, ⟨rest, supply.used + 1⟩)
  | [] => (s!"generated-key-{padded (supply.used + 1)}", ⟨[], supply.used + 1⟩)

end KeySupply

/-- The state that operations work on. -/
structure Session where
  durable : Store
  current : Store
  outage : Option Outage := none
  keys : KeySupply := {}
  events : List Event := []

/-- A session that begins on a store. -/
def Session.start (store : Store) (outage : Option Outage := none) : Session :=
  { durable := store, current := store, outage }

/-- An operation on a session. -/
abbrev Action := EStateM Failure Session

namespace Action

variable {α : Type}

/-- Fails if the outage hits this call. -/
def attempt (call : StoreCall) : Action Unit := fun s =>
  match s.outage with
  | none => .ok () s
  | some o =>
    if o.call = call then
      if o.after = 0 then .error o.failure s
      else .ok () { s with outage := some { o with after := o.after - 1 } }
    else .ok () s

/-- Fails if one of the tables is missing, naming the first such. -/
def require (tables : List Table) : Action Unit := fun s =>
  match tables.find? (· ∈ s.current.missing) with
  | none => .ok () s
  | some table => .error (.store (.noSuchTable table.name)) s

/-- What the store answers. -/
def ask (f : Store → α) : Action α := fun s => .ok (f s.current) s

/-- What the store answers from some tables. -/
def query (tables : List Table) (f : Store → α) : Action α := do
  require tables
  ask f

/-- Changes some tables. -/
def change (tables : List Table) (f : Store → Except StoreFault (α × Store)) : Action α := do
  require tables
  fun s =>
    match f s.current with
    | .ok (a, store) => .ok a { s with current := store }
    | .error fault => .error (.store fault) s

/-- Changes some tables in a way that breaks no rule. -/
def update (tables : List Table) (f : Store → Store) : Action Unit :=
  change tables fun s => .ok ((), f s)

/-- Makes what the session has done durable. -/
def commit : Action Unit := do
  attempt .commit
  modify fun s => { s with durable := s.current }

/-- Forgets what the session has done since the last commit. -/
def rollback : Action Unit := modify fun s => { s with current := s.durable }

/-- Records an event. -/
def record (event : Event) : Action Unit :=
  modify fun s => { s with events := s.events ++ [event] }

/-- The text of a new API key. -/
def newKey : Action String := modifyGet fun s => (s.keys.next.1, { s with keys := s.keys.next.2 })

/-- Reports a failure of the store as the store being unavailable, after a rollback that leaves the
session usable. -/
def guarded (act : Action α) : Action α :=
  tryCatch act fun
    | .store fault => do
      rollback
      throw (.unavailable fault.message)
    | failure => throw failure

end Action

end TeamAccess
