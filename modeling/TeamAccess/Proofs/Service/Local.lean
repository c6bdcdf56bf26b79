import TeamAccess.Proofs.Registry.Local
import TeamAccess.Service.Bootstrap
import TeamAccess.Service.Decision
import TeamAccess.Service.Synchronization

/-! # Services and what is committed

Questions to the services commit nothing. The services that commit do so whatever was committed
before: what they answer and leave behind is determined by the rows that their session sees.
-/

namespace TeamAccess

open TeamAccess.Action

namespace GroupMapping

theorem teamsForGroup_local (source : GroupSource) (group : String) :
    Local (teamsForGroup source group) := by
  cases source with
  | ldap =>
    refine (Local.of_reads fun _ => Groups.teamsForDn_reads group).bind fun teams => ?_
    dsimp only
    split
    · exact (Local.record _).bind fun _ => .pure _
    · exact .pure _
  | oidc =>
    refine (Local.of_reads fun _ => Groups.find?_reads group).bind fun found => ?_
    cases found with
    | none => exact (Local.record _).bind fun _ => .pure _
    | some g => exact .of_reads fun _ => Groups.teamsForGroup_reads g

theorem groupsForTeam_local (source : GroupSource) (team : TeamHandle) :
    Local (groupsForTeam source team) := by
  cases source with
  | ldap => exact Groups.dnsForTeam_local team
  | oidc => exact Groups.namesForTeam_local team

theorem isMapped_local (source : GroupSource) (team : TeamHandle) (group : String) :
    Local (isMapped source team group) :=
  (groupsForTeam_local source team).bind fun _ => .pure _

end GroupMapping

namespace MembershipService

theorem add_blind (principal : PrincipalHandle) (team : TeamHandle) :
    Blind (add principal team) := by
  have saved : Blind (do
      let added ← Principals.addToTeam principal team
      commit
      return added) :=
    (Principals.addToTeam_local principal team).blind.bind fun _ => Blind.commit.bind fun _ =>
      (Local.pure _).blind
  exact (Local.attempt _).blind.bind fun _ => saved.guarded.bind fun _ =>
    (Local.record _).blind.bind fun _ => (Local.pure _).blind

theorem remove_blind (principal : PrincipalHandle) (team : TeamHandle) :
    Blind (remove principal team) := by
  have saved : Blind (do
      let removed ← Principals.removeFromTeam principal team
      commit
      return removed) :=
    (Principals.removeFromTeam_local principal team).blind.bind fun _ =>
      Blind.commit.bind fun _ => (Local.pure _).blind
  exact (Local.attempt _).blind.bind fun _ => saved.guarded.bind fun _ =>
    (Local.record _).blind.bind fun _ => (Local.pure _).blind

end MembershipService

namespace Synchronization

theorem isStale_local (principal : String) (source : GroupSource) (asserted : List String)
    (team : Team) : Local (isStale principal source asserted team) := by
  refine (GroupMapping.groupsForTeam_local source team.handle).bind fun mapped => ?_
  dsimp only
  split
  · exact (Local.record _).bind fun _ => .pure _
  · exact (Local.forM (fun _ => .record _) _).bind fun _ => .pure _

theorem leaveAll_blind (principal : String) (user : PrincipalHandle) (source : GroupSource)
    (teams : List Team) : Blind (leaveAll principal user source teams) :=
  .forM (fun _ => (Local.record _).blind.bind fun _ =>
    (MembershipService.remove_blind _ _).discard) teams

theorem joinGroup_blind (principal : String) (user : PrincipalHandle) (source : GroupSource)
    (group : String) : Blind (joinGroup principal user source group) :=
  (GroupMapping.teamsForGroup_local source group).blind.bind fun teams =>
    .forM (fun _ => (Local.record _).blind.bind fun _ =>
      (MembershipService.add_blind _ _).discard) teams

theorem run_blind (user : PrincipalHandle) (source : GroupSource) (asserted : List String) :
    Blind (run user source asserted) := by
  refine (Principals.reload_local user).blind.bind fun current => ?_
  refine (Local.filterM (isStale_local _ _ _) current.teams).blind.bind fun stale => ?_
  refine (leaveAll_blind _ _ _ stale).bind fun _ => ?_
  refine (Blind.forM (joinGroup_blind _ _ _) asserted).bind fun _ => ?_
  exact (Principals.reload_local current.handle).blind

theorem sourceOf_local (kind : PrincipalKind) : Local (sourceOf kind) := by
  unfold sourceOf
  split
  · exact .pure _
  · exact .throw _

theorem refuseLoneText_local (assertion : Assertion) : Local assertion.refuseLoneText := by
  cases assertion with
  | loneText => exact .throw _
  | groups names => exact .pure _
  | other value => exact .pure _

theorem names_local (assertion : Assertion) : Local assertion.names := by
  cases assertion with
  | loneText => exact .throw _
  | groups names => exact .pure _
  | other value => exact .throw _

theorem synchronize_blind (user : PrincipalHandle) (assertion : Assertion) :
    Blind (synchronize user assertion) :=
  (refuseLoneText_local assertion).blind.bind fun _ => (sourceOf_local _).blind.bind fun _ =>
    (names_local assertion).blind.bind fun _ => (Local.record _).blind.bind fun _ =>
      (run_blind user _ _).guarded.bind fun _ => (Local.record _).blind.bind fun _ =>
        (Local.pure _).blind

end Synchronization

namespace Bootstrap

theorem ensurePermission_local : Local ensurePermission := by
  refine (Permissions.find?_local _).bind fun found => ?_
  cases found with
  | some permission => exact .pure _
  | none =>
    exact (Permissions.create_local _ _).bind fun _ => (Local.record _).bind fun _ => .pure _

theorem ensureAdmin_local (username : String) : Local (ensureAdmin username) := by
  refine (Principals.findUser?_local .managed username).bind fun found => ?_
  cases found with
  | some user => exact .pure _
  | none =>
    exact (Principals.createUser_local _ _).bind fun _ => (Local.record _).bind fun _ => .pure _

/-- Everything that is stored at startup, but for its commit. -/
def prepare (admin : Option String) : Action Unit := do
  let permission ← ensurePermission
  match admin.filter (· != "") with
  | none => pure ()
  | some username =>
    let user ← ensureAdmin username
    discard (Permissions.grantToUser user.user.handle permission)

theorem ensure_eq (admin : Option String) : ensure admin = (do prepare admin; commit) := by
  unfold ensure prepare
  cases admin.filter (· != "") <;> simp only [bind_assoc, pure_bind]

theorem prepare_local (admin : Option String) : Local (prepare admin) := by
  refine ensurePermission_local.bind fun permission => ?_
  split
  · exact .pure _
  · exact (ensureAdmin_local _).bind fun user =>
      (Permissions.grantToUser_local _ permission).discard

theorem ensure_blind (admin : Option String) : Blind (ensure admin) := by
  rw [ensure_eq]
  exact (prepare_local admin).blind.bind fun _ => Blind.commit

end Bootstrap

namespace Evaluation

theorem someTeamHas_local (name : String) (teams : List Team) :
    Local (someTeamHas name teams) := by
  induction teams with
  | nil => exact .pure _
  | cons team rest ih =>
    have asks : Local (Permissions.teamHas team.id name) :=
      .of_reads fun _ => ⟨_, Permissions.teamHas_traces team.id name⟩
    refine asks.bind fun held => ?_
    split
    · exact .pure _
    · exact ih

theorem userHas_tentative (user : PrincipalHandle) (name : String) (includeTeams : Bool) :
    Tentative (userHas user name includeTeams) := by
  refine Tentative.guarded (Local.tentative ?_)
  refine (Principals.reload_local user).bind fun current => ?_
  refine (Local.of_reads fun _ => Permissions.directlyHas_reads _ _ name).bind fun held => ?_
  split
  · exact .pure _
  · split
    · exact .pure _
    · exact someTeamHas_local name _

theorem teamHas_tentative (team : TeamHandle) (name : String) : Tentative (teamHas team name) := by
  refine Tentative.guarded (Local.tentative ?_)
  split
  · exact .throw _
  · refine (Teams.get?_local _).bind fun found => ?_
    cases found with
    | none => exact .throw _
    | some record => exact .of_reads fun _ => ⟨_, Permissions.teamHas_traces _ name⟩

theorem keyHas_tentative (apiKey : PrincipalHandle) (name : String) :
    Tentative (keyHas apiKey name) :=
  (((Principals.reload_local apiKey).bind fun _ => someTeamHas_local name _).tentative).guarded

theorem effective_tentative (principal : PrincipalHandle) : Tentative (effective principal) := by
  refine Tentative.guarded (Local.tentative ?_)
  refine (Principals.reload_local principal).bind fun current => ?_
  refine (Local.of_reads fun _ => Permissions.directFor_reads _ _).bind fun direct => ?_
  exact (Local.mapM (fun team => .of_reads fun _ => Permissions.forTeam_reads team.id) _).bind
    fun _ => .pure _

end Evaluation

namespace Decision

theorem firstPassing_pends {test : String → Action Bool} (h : ∀ name, Pends (test name))
    (required : List String) : Pends (firstPassing test required) := by
  induction required with
  | nil => exact (Local.pure _).pends
  | cons name rest ih =>
    refine (h name).bind fun passed => ?_
    split
    · exact (Local.pure _).pends
    · exact ih

theorem granted_pends (p : PrincipalHandle) (required : List String) :
    Pends (granted p required) := by
  unfold granted
  split
  · exact firstPassing_pends (fun _ => (Evaluation.keyHas_tentative _ _).pends) required
  · refine Pends.bind (x := Principals.findUser? p.kind p.name) ?_ fun found => ?_
    · rename_i k hk
      rw [hk]
      exact (Principals.findUser?_local k p.name).pends
    · cases found with
      | none => exact (Local.throw _).pends
      | some user =>
        exact firstPassing_pends (fun _ => (Evaluation.userHas_tentative _ _ _).pends) required

/-- A decision may undo what is not committed, but it commits nothing. -/
theorem authorize_pends (principal : Option PrincipalHandle) (required : List String) :
    Pends (authorize principal required) := by
  cases principal with
  | none => exact ((Local.record _).bind fun _ => .pure _).pends
  | some p =>
    have reason : Pends (reasonToDeny (guarded (granted p required))) := by
      refine Pends.tryCatch ((granted_pends p required).guarded.bind fun _ =>
        (Local.pure _).pends) fun f => ?_
      split
      · exact (Local.pure _).pends
      · exact (Local.pure _).pends
      · exact (Local.throw _).pends
    refine reason.bind fun found => ?_
    cases found with
    | none => exact (Local.pure _).pends
    | some reason => exact ((Local.record _).bind fun _ => .pure _).pends

end Decision

end TeamAccess
