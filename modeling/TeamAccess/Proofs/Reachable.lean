import TeamAccess.Proofs.Http.Keeps
import TeamAccess.Proofs.Script.Keeps
import TeamAccess.Proofs.Store.Integrity

/-! # Reachable stores

A store is reachable if scripts, servers that start and requests lead to it from the empty store, in
any order and with any failures. The rows of a reachable store are distinct. Unless a server has put
back a table that was removed, the edges in a store with all its tables join what is stored.
-/

namespace TeamAccess

/-- Scripts and servers lead from the empty store to this one. -/
inductive Reachable : Store → Prop where
  | empty : Reachable .empty
  | script {s : Store} (entry : Entry) : Reachable s →
      Reachable (Script.runEntry entry s).2
  | start {s : Store} {server : Http.Server} (settings : Settings) (keys : KeySupply) :
      Reachable s → (Http.Server.start settings s keys).outcome = .ok server →
      Reachable server.store
  | request {server : Http.Server} (outage : Option Outage) (request : Http.Request) :
      Reachable server.store → Reachable (server.handle outage request).2.store

theorem Reachable.distinct {s : Store} (h : Reachable s) : s.Distinct := by
  induction h with
  | empty => exact Store.distinct_empty
  | script entry _ ih =>
    exact Script.runEntry_keeps Store.closed_distinct (fun s t => .dropTable t) entry ih
  | start settings keys _ hs ih =>
    exact Http.Server.start_keeps Store.closed_distinct .createTables settings keys ih _ hs
  | request outage request _ ih =>
    exact Http.Server.handle_keeps Store.closed_distinct _ outage request ih

/-- Scripts and servers lead from the empty store to this one, and no server has put back a table
that was removed. -/
inductive Unrepaired : Store → Prop where
  | empty : Unrepaired .empty
  | script {s : Store} (entry : Entry) : Unrepaired s → Unrepaired (Script.runEntry entry s).2
  | start {s : Store} {server : Http.Server} (settings : Settings) (keys : KeySupply) :
      Unrepaired s → s.isComplete = true →
      (Http.Server.start settings s keys).outcome = .ok server → Unrepaired server.store
  | request {server : Http.Server} (outage : Option Outage) (request : Http.Request) :
      Unrepaired server.store → Unrepaired (server.handle outage request).2.store

theorem Unrepaired.reachable {s : Store} (h : Unrepaired s) : Reachable s := by
  induction h with
  | empty => exact .empty
  | script entry _ ih => exact .script entry ih
  | start settings keys _ _ hs ih => exact .start settings keys ih hs
  | request outage request _ ih => exact .request outage request ih

theorem Unrepaired.sound {s : Store} (h : Unrepaired s) (hc : s.isComplete = true) :
    s.Sound := by
  -- a store that has lost a table is no longer bound
  suffices hm : s.missing = [] → s.Sound from hm (List.isEmpty_iff.mp hc)
  clear hc
  induction h with
  | empty => exact fun _ => Store.sound_empty
  | script entry _ ih =>
    refine Script.runEntry_keeps Store.closed_sound.while_complete (fun s t _ hm => absurd hm ?_)
      entry ih
    cases t <;> simp [Store.dropTable]
  | start settings keys _ hc hs ih =>
    have complete := List.isEmpty_iff.mp hc
    exact Http.Server.start_keeps Store.closed_sound.while_complete
      (fun hs _ => { hs complete with }) settings keys ih _ hs
  | request outage request _ ih =>
    exact Http.Server.handle_keeps Store.closed_sound.while_complete _ outage request ih

theorem Unrepaired.attached {s : Store} (h : Unrepaired s) (hc : s.isComplete = true) :
    s.Attached := (h.sound hc).attached

/-! ## A small store

A directory user belongs to a team that no group reaches; a group reaches the team that administers
the service, and an API key belongs to that team.
-/

namespace Sample

/-- The identifiers in the order in which they are issued. -/
def id (n : Nat) : Uuid := ⟨Store.firstId + n⟩

def management : Permission := ⟨id 0, Bootstrap.accessManagement, none⟩

def admins : Team := ⟨id 1, "admins"⟩

def guests : Team := ⟨id 2, "guests"⟩

def ann : User := ⟨id 3, "ann", .ldap none⟩

def key : ApiKey := ⟨id 4, "k-1"⟩

def store : Store where
  permissions := [management]
  teams := [admins, guests]
  users := [ann]
  apiKeys := [key]
  ldapMappings := [⟨admins.id, "cn=admins"⟩]
  memberships := [⟨.apiKey, key.id, admins.id⟩, ⟨.user .ldap, ann.id, guests.id⟩]
  teamGrants := [⟨admins.id, management.id⟩]

def entry : Entry := .transaction
  [⟨.createPermission Bootstrap.accessManagement none, none⟩, ⟨.createTeam "admins", none⟩,
    ⟨.createTeam "guests", none⟩, ⟨.createUser "LDAP" "ann" [], none⟩,
    ⟨.createApiKey "k-1" [.stored "admins"], none⟩,
    ⟨.mapLdap (.stored "admins") "cn=admins", none⟩,
    ⟨.addMember (.stored "LDAP" "ann") (.stored "guests"), none⟩,
    ⟨.grantTeam (.stored "admins") Bootstrap.accessManagement, none⟩] true

theorem unrepaired : Unrepaired store := by
  have h : (Script.runEntry entry .empty).2 = store := by decide +kernel
  exact h ▸ .script entry .empty

theorem reachable : Reachable store := unrepaired.reachable

/-- A key of the team that is granted nothing. -/
def guestKey : ApiKey := ⟨id 5, "k-2"⟩

/-- The store once that key has been made. -/
def guestStore : Store :=
  { store with
    apiKeys := [key, guestKey]
    memberships := store.memberships ++ [⟨.apiKey, guestKey.id, guests.id⟩] }

theorem guestStore_reachable : Reachable guestStore := by
  have h : (Script.runEntry (.transaction [⟨.createApiKey "k-2" [.stored "guests"], none⟩] true)
      store).2 = guestStore := by decide +kernel
  exact h ▸ .script _ reachable

end Sample

end TeamAccess
