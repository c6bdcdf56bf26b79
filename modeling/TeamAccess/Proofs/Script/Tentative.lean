import TeamAccess.Proofs.Script.Keeps
import TeamAccess.Proofs.Script.Reference
import TeamAccess.Proofs.Service.Local

/-! # Commands that commit nothing

Only the commands that call a service which commits change what is committed. What the others answer
and write is determined by the rows that the session sees, which makes it immaterial whether these
have been committed.
-/

namespace TeamAccess

open TeamAccess.Action

/-- Whether a command calls a service that commits. -/
def Command.commits : Command → Bool
  | .addMember .. | .removeMember .. | .sync .. | .bootstrap _ => true
  | _ => false

namespace Script

section Lookups

theorem kindOf_local (text : String) : Local (kindOf text) := .of_finds fun _ => kindOf_finds text

theorem principal?_local (ref : PrincipalRef) : Local (principal? ref) :=
  .of_finds fun _ => principal?_finds ref

theorem subject_local (asked : String) (p : Option PrincipalHandle) : Local (subject asked p) :=
  .of_finds fun _ => subject_finds asked p

theorem principal_local (ref : PrincipalRef) : Local (principal ref) :=
  .of_finds fun _ => principal_finds ref

theorem team_local (ref : TeamRef) : Local (team ref) := .of_finds fun _ => team_finds ref

theorem permission_local (name : String) : Local (permission name) :=
  .of_finds fun _ => permission_finds name

theorem oidcGroup_local (name : String) : Local (oidcGroup name) :=
  .of_finds fun _ => oidcGroup_finds name

theorem sourceOf_local (text : String) : Local (sourceOf text) := by
  unfold sourceOf
  split
  · exact .pure _
  · exact .throw _

theorem userKind_local (kind : PrincipalKind) : Local (Principals.userKind kind) := by
  cases kind with
  | user k => exact .pure k
  | apiKey => exact .throw _

theorem setAttribute_local (profile : Profile) (name : String) (value : Json) :
    Local (setAttribute profile name value) := by
  unfold setAttribute
  split
  case h_4 | h_8 => exact .throw _
  all_goals exact .pure _

end Lookups

section Inventory

theorem findUser?_local (kind : PrincipalKind) (name : String) :
    Local (Principals.findUser? kind name) := by
  cases kind with
  | user k => exact Principals.findUser?_local k name
  | apiKey => exact .of_reads fun _ => Principals.findUser?_apiKey_reads name

theorem listUsers_local (kind : PrincipalKind) : Local (Principals.listUsers kind) := by
  cases kind with
  | user k => exact .of_reads fun _ => Principals.listUsers_reads k
  | apiKey => exact .of_reads fun _ => Principals.listUsers_apiKey_reads

theorem findApiKey?_local (key : String) : Local (Principals.findApiKey? key) :=
  .of_reads fun _ => ⟨_, Principals.findApiKey?_traces key⟩

theorem describe_local (record : TeamRecord) : Local (describe record) :=
  (Groups.dnsForTeam_local _).bind fun _ => (Groups.namesForTeam_local _).bind fun _ => .pure _

theorem inventory_local : Local inventory := by
  refine (Local.of_reads fun _ => Permissions.list_reads).bind fun permissions => ?_
  refine (Local.of_reads fun _ => Teams.list_reads).bind fun teams => ?_
  refine (Local.mapM describe_local teams).bind fun teams => ?_
  refine (Local.mapM (fun kind => (listUsers_local (.user kind)).bind fun _ => .pure _)
    UserKind.all).bind fun users => ?_
  refine (Local.query _ _).bind fun keys => ?_
  refine (Local.of_reads fun _ => loadKeys_reads keys).bind fun keys => ?_
  exact (Local.of_reads fun _ => Groups.list_reads).bind fun _ => .pure _

end Inventory

section During

variable {α : Type} {outage : Option Outage} {act : Action α}

theorem during_pends (h : Pends act) : Pends (during outage act) := by
  intro st s hs
  rw [during_apply]
  have hd := h st { s with outage } hs
  revert hd
  cases act { s with outage } with
  | ok a s' => exact id
  | error f s' => exact id

theorem during_blind (h : Blind act) : Blind (during outage act) := by
  intro s t a s' hx
  rw [during_apply] at hx
  cases ha : act { s with outage } with
  | error f s₁ =>
    rw [ha] at hx
    cases hx
  | ok b s₁ =>
    rw [ha] at hx
    cases hx
    obtain ⟨t', ht⟩ := h _ t _ _ ha
    have seen : ({ s.over t with outage } : Session) = ({ s with outage } : Session).over t := rfl
    rw [during_apply, seen, ht]
    exact ⟨t', rfl⟩

theorem during_localAt {s : Session} (h : LocalAt { s with outage } act) :
    LocalAt s (during outage act) := by
  intro t
  have same := h t
  have seen : ({ s.over t with outage } : Session) = ({ s with outage } : Session).over t := rfl
  rw [during_apply, during_apply, seen, same]
  cases act { s with outage } <;> rfl

theorem during_tentative (h : Tentative act) : Tentative (during outage act) :=
  ⟨during_pends h.pends, during_blind h.blind⟩

end During

section Commands

variable {outage : Option Outage} {command : Command}

theorem dropTable_local (name : String) : Local (dropTable name) := by
  unfold dropTable
  split
  · exact .throw _
  · exact .update _ _

/-- What a command that calls no committing service commits, and on what its answer depends: nothing
that is committed. -/
theorem perform_tentative (hc : command.commits = false)
    (ha : ∀ ref required, command ≠ .authorize ref required) :
    Tentative (perform outage command) := by
  cases command with
  | createPermission name description =>
    exact ((Permissions.create_local name description).bind fun _ => .pure _).tentative
  | getPermission name => exact ((Permissions.find?_local name).bind fun _ => .pure _).tentative
  | listPermissions =>
    exact ((Local.of_reads fun _ => Permissions.list_reads).bind fun _ => .pure _).tentative
  | createTeam name => exact ((Teams.create_local name).bind fun _ => .pure _).tentative
  | getTeam name => exact ((Teams.find?_local name).bind fun _ => .pure _).tentative
  | renameTeam ref name =>
    refine ((team_local ref).bind fun t => ?_).tentative
    split
    · exact .pure _
    · exact (Teams.rename_local _ name).bind fun _ => .pure _
  | listTeams => exact ((Local.of_reads fun _ => Teams.list_reads).bind fun _ => .pure _).tentative
  | createUser kind name attributes =>
    refine ((kindOf_local kind).bind fun kind => (userKind_local kind).bind fun k => ?_).tentative
    exact (Local.foldlM (fun p a => setAttribute_local p a.1 a.2) _ attributes).bind fun profile =>
      (Principals.createUser_local name profile).bind fun _ => .pure _
  | findUser kind name =>
    exact ((kindOf_local kind).bind fun kind => (findUser?_local kind name).bind fun _ =>
      .pure _).tentative
  | resolve kind name =>
    exact ((kindOf_local kind).bind fun kind =>
      (Local.of_reads fun _ => Principals.resolve?_reads kind name).bind fun _ =>
        .pure _).tentative
  | getUserPrincipal name =>
    exact ((Local.of_reads fun _ => Principals.findIn?_reads name UserKind.all).bind fun _ =>
      .pure _).tentative
  | listUsers kind =>
    exact ((kindOf_local kind).bind fun kind => (listUsers_local kind).bind fun _ =>
      .pure _).tentative
  | createApiKey key refs =>
    exact ((Local.mapM team_local refs).bind fun handles =>
      (Local.mapM Teams.store_local handles).bind fun teams =>
        (Principals.createApiKey_local key teams).bind fun _ => .pure _).tentative
  | getApiKey key => exact ((findApiKey?_local key).bind fun _ => .pure _).tentative
  | regenerateApiKey ref key =>
    refine ((principal_local ref).bind fun p => ?_).tentative
    split
    · exact (Principals.regenerateApiKey_local p key).bind fun _ => .pure _
    · exact (Principals.lock_local p).bind fun _ => .pure _
  | createOidcGroup name => exact ((Groups.create_local name).bind fun _ => .pure _).tentative
  | getOidcGroup name =>
    exact ((Local.of_reads fun _ => Groups.find?_reads name).bind fun _ => .pure _).tentative
  | listOidcGroups =>
    exact ((Local.of_reads fun _ => Groups.list_reads).bind fun _ => .pure _).tentative
  | mapLdap ref group =>
    exact ((team_local ref).bind fun t => (Groups.mapLdap_local t group).bind fun _ =>
      (Groups.dnsForTeam_local t).bind fun _ => .pure _).tentative
  | mapOidc ref group =>
    exact ((team_local ref).bind fun t => (oidcGroup_local group).bind fun g =>
      (Groups.mapOidc_local t g).bind fun _ => (Groups.namesForTeam_local t).bind fun _ =>
        .pure _).tentative
  | unmapLdap ref group =>
    exact ((team_local ref).bind fun t => (Groups.unmapLdap_local t group).bind fun _ =>
      .pure _).tentative
  | unmapOidc ref group =>
    exact ((team_local ref).bind fun t => (oidcGroup_local group).bind fun g =>
      (Groups.unmapOidc_local t g).bind fun _ => .pure _).tentative
  | grantTeam ref name =>
    exact ((team_local ref).bind fun t => (permission_local name).bind fun q =>
      (Permissions.grantToTeam_local t q).bind fun _ => .pure _).tentative
  | revokeTeam ref name =>
    exact ((team_local ref).bind fun t => (permission_local name).bind fun q =>
      (Permissions.revokeFromTeam_local t q).bind fun _ => .pure _).tentative
  | grantUser ref name =>
    exact ((principal?_local ref).bind fun p => (permission_local name).bind fun q =>
      (subject_local _ p).bind fun p => (Permissions.grantToUser_local p q).bind fun _ =>
        .pure _).tentative
  | dropTable name => exact ((dropTable_local name).bind fun _ => .pure _).tentative
  | teamsForGroup source group =>
    exact ((sourceOf_local source).bind fun source =>
      (GroupMapping.teamsForGroup_local source group).bind fun _ => .pure _).tentative
  | groupsForTeam source ref =>
    exact ((sourceOf_local source).bind fun source => (team_local ref).bind fun t =>
      (GroupMapping.groupsForTeam_local source t).bind fun _ => .pure _).tentative
  | isMapped source ref group =>
    exact ((sourceOf_local source).bind fun source => (team_local ref).bind fun t =>
      (GroupMapping.isMapped_local source t group).bind fun _ => .pure _).tentative
  | userHas ref name includeTeams =>
    exact (principal_local ref).tentative.bind fun p =>
      (during_tentative (Evaluation.userHas_tentative p name includeTeams)).bind fun _ =>
        (Local.pure _).tentative
  | teamHas ref name =>
    exact (team_local ref).tentative.bind fun t =>
      (during_tentative (Evaluation.teamHas_tentative t name)).bind fun _ =>
        (Local.pure _).tentative
  | keyHas ref name =>
    exact (principal_local ref).tentative.bind fun p =>
      (during_tentative (Evaluation.keyHas_tentative p name)).bind fun _ =>
        (Local.pure _).tentative
  | effective ref =>
    exact (principal_local ref).tentative.bind fun p =>
      (during_tentative (Evaluation.effective_tentative p)).bind fun _ => (Local.pure _).tentative
  | authorize ref required => exact absurd rfl (ha ref required)
  | dump => exact (inventory_local.bind fun _ => .pure _).tentative
  | _ => simp [Command.commits] at hc

/-- Asking for a decision commits nothing either. -/
theorem perform_pends (hc : command.commits = false) : Pends (perform outage command) := by
  by_cases ha : ∃ ref required, command = .authorize ref required
  · obtain ⟨ref, required, rfl⟩ := ha
    exact (principal?_local ref).pends.bind fun p =>
      (during_pends (Decision.authorize_pends p required)).bind fun _ => (Local.pure _).pends
  · exact (perform_tentative hc fun ref required h => ha ⟨ref, required, h⟩).pends

/-- No answer depends on what is committed, but for that of a decision. -/
theorem perform_blind (ha : ∀ ref required, command ≠ .authorize ref required) :
    Blind (perform outage command) := by
  by_cases hc : command.commits = true
  · cases command with
    | bootstrap username =>
      exact (Bootstrap.ensure_blind username).bind fun _ => (Local.pure _).blind
    | addMember ref teamRef =>
      exact (principal?_local ref).blind.bind fun p => (team_local teamRef).blind.bind fun t =>
        (subject_local _ p).blind.bind fun p =>
          (during_blind (MembershipService.add_blind p t)).bind fun _ => (Local.pure _).blind
    | removeMember ref teamRef =>
      exact (principal?_local ref).blind.bind fun p => (team_local teamRef).blind.bind fun t =>
        (subject_local _ p).blind.bind fun p =>
          (during_blind (MembershipService.remove_blind p t)).bind fun _ => (Local.pure _).blind
    | sync ref groups =>
      exact (principal?_local ref).blind.bind fun p =>
        (Synchronization.refuseLoneText_local groups).blind.bind fun _ =>
          (subject_local _ p).blind.bind fun p =>
            (during_blind (Synchronization.synchronize_blind p groups)).bind fun _ =>
              (Local.pure _).blind
    | _ => simp [Command.commits] at hc
  · exact (perform_tentative (by simpa using hc) ha).blind

end Commands

end Script

end TeamAccess
