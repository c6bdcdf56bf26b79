import TeamAccess.Proofs.Course
import TeamAccess.Proofs.Service.Synchronization
import TeamAccess.Service.Evaluation

/-! # The courses of the services

Every store call of a service, in order, together with what the service writes, commits and records
in between. The calls after a change of rows are those that the changed rows determine.
-/

namespace TeamAccess

open TeamAccess.Action

namespace Plan

/-- Reads a principal again, by way of a call. -/
def fetch (call : StoreCall) (p : PrincipalHandle) : Plan PrincipalRecord :=
  reads (fun st => .call call :: fetchProbes st p) fun st =>
    (st.record? p).elim (.error p.notFound) .ok

/-- Reads the stored team of a handle. -/
def target (t : TeamHandle) : Plan Team :=
  reads (targetProbes · t) fun st => (t.id.bind st.teamById?).elim (.error t.notFound) .ok

end Plan

namespace Principals

theorem reload_covers (p : PrincipalHandle) : Covers (reload p) (Plan.fetch .reload p) :=
  .reads fun _ => reload_traces p

theorem lock_covers (p : PrincipalHandle) : Covers (lock p) (Plan.fetch .lock p) :=
  .reads fun _ => lock_traces p

theorem target_covers (t : TeamHandle) : Covers (target t) (Plan.target t) :=
  .reads fun _ => target_traces t

/-- The course of making a principal a member, uncommitted. -/
def addPlan (p : PrincipalHandle) (t : TeamHandle) : Plan Bool := do
  .moves [.access (.call .addToTeam)]
  let record ← .fetch .lock p
  let team ← .target t
  if record.teams.any (·.id = team.id) then return false
  .update [.memberships record.kind] (·.join ⟨record.kind, record.id, team.id⟩)
  return true

/-- The course of ending a membership, uncommitted. -/
def removePlan (p : PrincipalHandle) (t : TeamHandle) : Plan Bool := do
  .moves [.access (.call .removeFromTeam)]
  let record ← .fetch .lock p
  match t.id with
  | none => return false
  | some id =>
    if !record.teams.any (·.id = id) then return false
    .update [.memberships record.kind] (·.leave ⟨record.kind, record.id, id⟩)
    return true

theorem addToTeam_covers (p : PrincipalHandle) (t : TeamHandle) :
    Covers (addToTeam p t) (addPlan p t) := by
  refine (Covers.attempt _).bind fun _ => (lock_covers p).bind fun record => ?_
  refine (target_covers t).bind fun team => ?_
  split
  · exact .pure _
  · exact (Covers.update _ _).bind fun _ => .pure _

theorem removeFromTeam_covers (p : PrincipalHandle) (t : TeamHandle) :
    Covers (removeFromTeam p t) (removePlan p t) := by
  refine (Covers.attempt _).bind fun _ => (lock_covers p).bind fun record => ?_
  cases t.id with
  | none => exact .pure _
  | some id =>
    dsimp only
    split
    · exact .pure _
    · exact (Covers.update _ _).bind fun _ => .pure _

end Principals

namespace MembershipService

/-- The course of adding a member. -/
def addPlan (p : PrincipalHandle) (t : TeamHandle) : Plan Bool := do
  .moves [.access (.call .addMembership)]
  let added ← Principals.addPlan p t
  .keep (.membership (if added then .added else .unchanged) p.identifier p.kind t.name)
  return added

/-- The course of removing a member. -/
def removePlan (p : PrincipalHandle) (t : TeamHandle) : Plan Bool := do
  .moves [.access (.call .removeMembership)]
  let removed ← Principals.removePlan p t
  .keep (.membership (if removed then .removed else .unchanged) p.identifier p.kind t.name)
  return removed

theorem add_covers (p : PrincipalHandle) (t : TeamHandle) : Covers (add p t) (addPlan p t) :=
  (Covers.attempt _).bind fun _ => (Principals.addToTeam_covers p t).kept

theorem remove_covers (p : PrincipalHandle) (t : TeamHandle) :
    Covers (remove p t) (removePlan p t) :=
  (Covers.attempt _).bind fun _ => (Principals.removeFromTeam_covers p t).kept

end MembershipService

namespace GroupMapping

/-- The accesses that find the groups of a team. -/
def groupProbes : GroupSource → List Probe
  | .ldap => [.call .dnsForTeam, .read [.ldapMappings]]
  | .oidc => [.call .oidcNamesForTeam, .read [.oidcGroups, .oidcMappings]]

/-- The accesses that find the teams of a provider group. -/
def namedProbes (st : Store) (g : OidcGroup) : List Probe :=
  .call .teamsForOidcGroup :: .read [.teams, .oidcMappings] ::
    teamGrantProbes (st.teamsForOidcGroup g.id)

/-- The accesses that find the teams of a group. -/
def reachProbes (st : Store) (group : String) : GroupSource → List Probe
  | .ldap => .call .teamsForDn :: .read [.teams, .ldapMappings] ::
      teamGrantProbes (st.teamsForDn group)
  | .oidc => .call .findOidcGroup :: .read [.oidcGroups] ::
      (st.oidcGroup? group).elim [] (namedProbes st)

/-- The course of finding the teams of a group. -/
def reachPlan (source : GroupSource) (group : String) : Plan (List Team) := fun st =>
  ⟨(reachProbes st group source).map .access ++ (unresolved st group source).map .note,
    .ok (st.teamsFor group source)⟩

theorem groupsForTeam_traces {st : Store} (source : GroupSource) (t : Team) :
    Traces st (groupsForTeam source t.handle) (groupProbes source)
      (.ok (st.groupsFor t.id source)) := by
  cases source with
  | ldap => exact Groups.dnsForTeam_traces t.handle
  | oidc => exact Groups.namesForTeam_traces t.handle

theorem teamsForGroup_covers (source : GroupSource) (group : String) :
    Covers (teamsForGroup source group) (reachPlan source group) := by
  cases source with
  | ldap =>
    have found := Covers.reads (fun st => @Groups.teamsForDn_traces st group)
    refine (found.bind fun teams => (?_ : Covers _ (do
      if teams.isEmpty then Plan.moves [.note (.unresolvedGroup .ldap group)]
      return teams))).cast ?_
    · dsimp only
      split
      · exact (Covers.record _).bind fun _ => .pure _
      · exact .pure _
    · funext st
      change Plan.andThen _ _ st = _
      simp only [Plan.andThen, Plan.reads, Move.rows_accesses, reachPlan, reachProbes, unresolved]
      split <;> simp [Plan.moves, Pure.pure, Bind.bind, Plan.andThen, Store.teamsFor]
  | oidc =>
    have found := Covers.reads (fun st => @Groups.find?_traces st group)
    refine (found.bind fun o => (?_ : Covers _ (o.elim (do
      Plan.moves [.note (.unresolvedGroup .oidc group)]
      return []) fun g => Plan.reads (namedProbes · g) fun st =>
        .ok (st.teamsForOidcGroup g.id)))).cast ?_
    · cases o with
      | none => exact (Covers.record _).bind fun _ => .pure _
      | some g => exact .reads fun _ => Groups.teamsForGroup_traces g
    · funext st
      change Plan.andThen _ _ st = _
      simp only [Plan.andThen, Plan.reads, Move.rows_accesses, reachPlan, reachProbes, unresolved]
      cases hg : st.oidcGroup? group <;>
        simp [Plan.moves, Pure.pure, Bind.bind, Plan.andThen, Plan.reads, Store.teamsFor, hg]

end GroupMapping

namespace Synchronization

/-- What is found out about one team that may have to go. -/
def staleMoves (st : Store) (principal : String) (source : GroupSource) (asserted : List String)
    (t : Team) : List Move :=
  (GroupMapping.groupProbes source).map .access ++
    (staleNotes st principal source asserted t).map .note

/-- The course of finding the teams that have to go. -/
def stalePlan (principal : String) (source : GroupSource) (asserted : List String)
    (teams : List Team) : Plan (List Team) := fun st =>
  ⟨teams.flatMap (staleMoves st principal source asserted),
    .ok (teams.filter (st.isStale source asserted))⟩

/-- The course of ending the memberships in some teams. -/
def leavePlan (principal : String) (user : PrincipalHandle) (source : GroupSource)
    (teams : List Team) : Plan Unit :=
  teams.forM fun team => do
    .moves [.note (.syncRemove principal source team.name)]
    let _ ← MembershipService.removePlan user team.handle
    return ()

/-- The course of joining every team that a group reaches. -/
def joinPlan (principal : String) (user : PrincipalHandle) (source : GroupSource)
    (group : String) : Plan Unit := do
  (← GroupMapping.reachPlan source group).forM fun team => do
    .moves [.note (.syncAdd principal source team.name group)]
    let _ ← MembershipService.addPlan user team.handle
    return ()

/-- The course of a run. -/
def runPlan (user : PrincipalHandle) (source : GroupSource) (asserted : List String) :
    Plan PrincipalRecord := do
  let current ← .fetch .reload user
  let stale ← stalePlan user.identifier source asserted current.teams
  leavePlan user.identifier current.handle source stale
  asserted.forM (joinPlan user.identifier current.handle source)
  .fetch .reload current.handle

/-- The course of a synchronization. -/
def synchronizePlan (user : PrincipalHandle) : Assertion → Plan PrincipalRecord
  | .loneText => .fail .loneText
  | .other value =>
    match user.kind.userKind?.bind (·.source?) with
    | none => .fail (.notSynchronized user.kind)
    | some _ => .fail (.notACollection value)
  | .groups names =>
    match user.kind.userKind?.bind (·.source?) with
    | none => .fail (.notSynchronized user.kind)
    | some source => do
      .moves [.note (.syncStarted user.identifier source (firsts names))]
      let refreshed ← runPlan user source (firsts names)
      .moves [.note (.syncCompleted user.identifier source (refreshed.teams.map (·.name)))]
      return refreshed

theorem isStale_covers (principal : String) (source : GroupSource) (asserted : List String)
    (t : Team) : Covers (isStale principal source asserted t) fun st =>
      ⟨staleMoves st principal source asserted t, .ok (st.isStale source asserted t)⟩ := by
  have found := Covers.reads fun st => @GroupMapping.groupsForTeam_traces st source t
  refine (found.bind fun mapped => (?_ : Covers _ (do
    if mapped.isEmpty then
      Plan.moves [.note (.syncTeamUnmapped principal source t.name)]
      return true
    let absent := mapped.filter (!asserted.contains ·)
    Plan.moves (absent.map fun group => .note (.syncGroupNotAsserted principal source t.name group))
    return !absent.isEmpty))).cast ?_
  · split
    · exact (Covers.record _).bind fun _ => .pure _
    · exact (Covers.moves (Move.follow_notes _ _).symm).bind fun _ => .pure _
  · funext st
    change Plan.andThen _ _ st = _
    simp only [Plan.andThen, Plan.reads, Move.rows_accesses, staleMoves, staleNotes, Store.isStale]
    split
    · rename_i he
      simp [Plan.moves, Pure.pure, Bind.bind, Plan.andThen, he]
    · rename_i he
      rw [absent_eq_isStale he]
      simp [Plan.moves, Pure.pure, Bind.bind, Plan.andThen, Function.comp_def]

theorem rows_staleMoves (principal : String) (source : GroupSource) (asserted : List String)
    (st : Store) (t : Team) :
    Move.rows (staleMoves st principal source asserted t) st = st := by
  rw [staleMoves, Move.rows_append, Move.rows_accesses, Move.rows_notes]

theorem leaveAll_covers (principal : String) (user : PrincipalHandle) (source : GroupSource)
    (teams : List Team) :
    Covers (leaveAll principal user source teams) (leavePlan principal user source teams) :=
  .forM (fun _ => (Covers.record _).bind fun _ => (MembershipService.remove_covers _ _).discard)
    teams

theorem joinGroup_covers (principal : String) (user : PrincipalHandle) (source : GroupSource)
    (group : String) :
    Covers (joinGroup principal user source group) (joinPlan principal user source group) :=
  (GroupMapping.teamsForGroup_covers source group).bind fun teams =>
    .forM (fun _ => (Covers.record _).bind fun _ => (MembershipService.add_covers _ _).discard)
      teams

theorem staleTeams_covers (principal : String) (source : GroupSource) (asserted : List String)
    (teams : List Team) :
    Covers (staleTeams principal source asserted teams)
      (stalePlan principal source asserted teams) :=
  .filterM (isStale_covers principal source asserted)
    (rows_staleMoves principal source asserted) teams

theorem run_covers (user : PrincipalHandle) (source : GroupSource) (asserted : List String) :
    Covers (run user source asserted) (runPlan user source asserted) := by
  refine (Principals.reload_covers user).bind fun current => ?_
  refine (staleTeams_covers _ _ _ _).bind fun stale => ?_
  refine (leaveAll_covers _ _ _ stale).bind fun _ => ?_
  refine (Covers.forM (joinGroup_covers _ _ _) asserted).bind fun _ => ?_
  exact Principals.reload_covers current.handle

theorem synchronize_covers (user : PrincipalHandle) (assertion : Assertion) :
    Covers (synchronize user assertion) (synchronizePlan user assertion) := by
  cases assertion with
  | loneText => exact fun _ => rfl
  | other value =>
    simp only [synchronize, Assertion.refuseLoneText, sourceOf, synchronizePlan, pure_bind]
    cases user.kind.userKind?.bind (·.source?) with
    | none => exact .throw _
    | some source => exact .throw _
  | groups names =>
    simp only [synchronize, Assertion.refuseLoneText, sourceOf, synchronizePlan, pure_bind]
    cases user.kind.userKind?.bind (·.source?) with
    | none => exact .throw _
    | some source =>
      simp only [Assertion.names, pure_bind]
      refine (Covers.record _).bind fun _ => (run_covers user source _).guarded.bind fun _ => ?_
      exact (Covers.record _).bind fun _ => .pure _

end Synchronization

namespace Evaluation

/-- The course of asking whether a team holds a permission. -/
def holdsPlan (name : String) (team : Uuid) : Plan Bool :=
  .reads (fun _ => [.call .teamHas, .read [.teamGrants, .permissions]])
    fun st => .ok (st.teamHolds team name)

/-- The course of asking some teams until one holds a permission. -/
def somePlan (name : String) : List Team → Plan Bool
  | [] => return false
  | team :: rest => do
    if ← holdsPlan name team.id then return true
    somePlan name rest

/-- The course of asking whether a user holds a permission. -/
def userPlan (user : PrincipalHandle) (name : String) (includeTeams : Bool) : Plan Bool := do
  let current ← .fetch .reload user
  let held ← Plan.reads (fun _ => heldProbes current.kind) fun st =>
    .ok (current.kind.userKind?.any (st.userHolds · current.id name))
  if held then return true
  if !includeTeams then return false
  somePlan name current.teams

/-- The course of asking whether a team that a caller hands in holds a permission. -/
def teamPlan (team : TeamHandle) (name : String) : Plan Bool :=
  match team.id with
  | none => .fail (.notFound .team team.name)
  | some id => do
    match ← Plan.reads (teamProbes · id) fun st => .ok ((st.teamById? id).map st.teamRecord) with
    | none => .fail (.notFound .team team.name)
    | some _ => holdsPlan name id

/-- The course of asking whether a team of an API key holds a permission. -/
def keyPlan (apiKey : PrincipalHandle) (name : String) : Plan Bool := do
  somePlan name (← .fetch .reload apiKey).teams

/-- The course of listing the permissions of a principal. -/
def effectivePlan (principal : PrincipalHandle) : Plan (List Permission) := do
  let current ← .fetch .reload principal
  let direct ← Plan.reads (fun _ => directProbes current.kind) fun st =>
    .ok (current.kind.userKind?.elim [] (st.directPermissions · current.id))
  let inherited ← Plan.reads
    (fun _ => current.teams.flatMap fun _ => [.call .forTeam, .read [.permissions, .teamGrants]])
    fun st => .ok (current.teams.map fun team => st.teamPermissions team.id)
  return distinct (direct ++ inherited.flatten)

theorem someTeamHas_covers (name : String) (teams : List Team) :
    Covers (someTeamHas name teams) (somePlan name teams) := by
  induction teams with
  | nil => exact .pure false
  | cons team rest ih =>
    refine (Covers.reads fun _ => Permissions.teamHas_traces team.id name).bind fun held => ?_
    split
    · exact .pure true
    · exact ih

theorem userHas_covers (user : PrincipalHandle) (name : String) (includeTeams : Bool) :
    Covers (userHas user name includeTeams) (userPlan user name includeTeams) := by
  refine Covers.guarded ((Principals.reload_covers user).bind fun current => ?_)
  refine (Covers.reads fun _ => Permissions.held_traces _ _ name).bind fun held => ?_
  split
  · exact .pure true
  · split
    · exact .pure false
    · exact someTeamHas_covers name _

theorem teamHas_covers (team : TeamHandle) (name : String) :
    Covers (teamHas team name) (teamPlan team name) := by
  refine Covers.guarded ?_
  unfold teamPlan
  cases team.id with
  | none => exact .throw _
  | some id =>
    refine (Covers.reads fun _ => Teams.get?_traces id).bind fun found => ?_
    cases found with
    | none => exact .throw _
    | some record => exact .reads fun _ => Permissions.teamHas_traces id name

theorem keyHas_covers (apiKey : PrincipalHandle) (name : String) :
    Covers (keyHas apiKey name) (keyPlan apiKey name) :=
  .guarded ((Principals.reload_covers apiKey).bind fun _ => someTeamHas_covers name _)

theorem effective_covers (principal : PrincipalHandle) :
    Covers (effective principal) (effectivePlan principal) := by
  refine Covers.guarded ((Principals.reload_covers principal).bind fun current => ?_)
  refine (Covers.reads fun _ => Permissions.directFor_traces _ _).bind fun direct => ?_
  refine (Covers.reads fun _ => Traces.mapM _ fun team _ =>
    Permissions.forTeam_traces team.id).bind fun _ => .pure _

end Evaluation

end TeamAccess
