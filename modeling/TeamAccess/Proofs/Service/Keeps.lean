import TeamAccess.Proofs.Registry.Keeps
import TeamAccess.Service.Bootstrap
import TeamAccess.Service.Decision
import TeamAccess.Service.Synchronization

/-! # What the services keep

The services stay within every closed invariant of the rows wherever they are cut off, and none of
them refuses a request.
-/

namespace TeamAccess

open TeamAccess.Action

variable {M : Store → Uuid → Prop} {I : Store → Prop} {E : Failure → Prop}

section Reading

variable (h : Lenient E)

include h

namespace Evaluation

theorem someTeamHas_keeps (name : String) (teams : List Team) :
    Keeps I E (someTeamHas name teams) := by
  induction teams with
  | nil => exact Keeps.pure _
  | cons team teams ih =>
    refine (Permissions.teamHas_keeps h _ _).bind fun held => ?_
    cases held with
    | true => exact Keeps.pure _
    | false => exact ih

theorem userHas_keeps (user : PrincipalHandle) (name : String) (includeTeams : Bool) :
    Keeps I E (userHas user name includeTeams) := by
  refine h.guarded ?_
  refine (Principals.reload_keeps h user).bind fun current => ?_
  refine (Permissions.directlyHas_keeps h _ _ _).bind fun held => ?_
  split
  · exact Keeps.pure _
  · split
    · exact Keeps.pure _
    · exact someTeamHas_keeps h name _

theorem teamHas_keeps (team : TeamHandle) (name : String) : Keeps I E (teamHas team name) := by
  refine h.guarded ?_
  split
  · exact Keeps.throw (h _ rfl)
  · refine (Teams.get?_keeps h _).lookup ?_ fun found => ?_
    · exact Keeps.throw (h _ rfl)
    · exact Permissions.teamHas_keeps h _ _

theorem keyHas_keeps (apiKey : PrincipalHandle) (name : String) : Keeps I E (keyHas apiKey name) :=
  h.guarded <|
    (Principals.reload_keeps h apiKey).bind fun _ => someTeamHas_keeps h name _

theorem effective_keeps (principal : PrincipalHandle) : Keeps I E (effective principal) :=
  h.guarded <|
    (Principals.reload_keeps h principal).bind fun _ =>
      (Permissions.directFor_keeps h _ _).bind fun _ =>
        (Keeps.mapM fun _ _ => Permissions.forTeam_keeps h _).bind fun _ => Keeps.pure _

end Evaluation

namespace Decision

omit h in
theorem firstPassing_keeps {test : String → Action Bool} (ht : ∀ name, Keeps I E (test name))
    (names : List String) : Keeps I E (firstPassing test names) := by
  induction names with
  | nil => exact Keeps.pure _
  | cons name names ih =>
    refine (ht name).bind fun passed => ?_
    cases passed with
    | true => exact Keeps.pure _
    | false => exact ih

theorem granted_keeps (principal : PrincipalHandle) (required : List String) :
    Keeps I E (granted principal required) := by
  unfold granted
  split
  · exact firstPassing_keeps (fun _ => Evaluation.keyHas_keeps h _ _) _
  · refine (Principals.findUser?_keeps h _ _).lookup ?_ fun current => ?_
    · exact Keeps.throw (h _ rfl)
    · exact firstPassing_keeps (fun _ => Evaluation.userHas_keeps h _ _ _) _

omit h in
theorem reasonToDeny_keeps {question : Action Bool} (hq : Keeps I E question) :
    Keeps I E (reasonToDeny question) := by
  refine (hq.bind fun _ => Keeps.pure _).tryCatch fun f hf => ?_
  cases f with
  | notFound => exact Keeps.pure _
  | unavailable => exact Keeps.pure _
  | _ => exact Keeps.throw hf

theorem authorize_keeps (principal : Option PrincipalHandle) (required : List String) :
    Keeps I E (authorize principal required) := by
  cases principal with
  | none => exact (Keeps.record _).bind fun _ => Keeps.pure _
  | some p =>
    have hg : Keeps I E (guarded (granted p required)) := h.guarded (granted_keeps h p required)
    refine (reasonToDeny_keeps hg).lookup ?_ fun reason => ?_
    · exact Keeps.pure _
    · exact (Keeps.record _).bind fun _ => Keeps.pure _

end Decision

namespace GroupMapping

theorem teamsForGroup_keeps (source : GroupSource) (group : String) :
    Keeps I E (teamsForGroup source group) := by
  cases source with
  | ldap =>
    refine (Groups.teamsForDn_keeps h _).bind fun teams => ?_
    split
    · exact (Keeps.record _).bind fun _ => Keeps.pure _
    · exact (Keeps.pure ()).bind fun _ => Keeps.pure _
  | oidc =>
    refine (Groups.find?_keeps h _).lookup ?_ fun g => ?_
    · exact (Keeps.record _).bind fun _ => Keeps.pure _
    · exact Groups.teamsForGroup_keeps h g

theorem groupsForTeam_keeps (source : GroupSource) (team : TeamHandle) :
    Keeps I E (groupsForTeam source team) := by
  cases source with
  | ldap => exact Groups.dnsForTeam_keeps h team
  | oidc => exact Groups.namesForTeam_keeps h team

theorem isMapped_keeps (source : GroupSource) (team : TeamHandle) (group : String) :
    Keeps I E (isMapped source team group) :=
  (groupsForTeam_keeps h source team).bind fun _ => Keeps.pure _

end GroupMapping

namespace Assertion

theorem refuseLoneText_keeps (assertion : Assertion) : Keeps I E assertion.refuseLoneText := by
  cases assertion with
  | loneText => exact Keeps.throw (h _ rfl)
  | _ => exact Keeps.pure ()

theorem names_keeps (assertion : Assertion) : Keeps I E assertion.names := by
  cases assertion with
  | groups names => exact Keeps.pure names
  | _ => exact Keeps.throw (h _ rfl)

end Assertion

namespace Synchronization

theorem isStale_keeps (principal : String) (source : GroupSource) (asserted : List String)
    (team : Team) : Keeps I E (isStale principal source asserted team) := by
  refine (GroupMapping.groupsForTeam_keeps h source _).bind fun mapped => ?_
  split
  · exact (Keeps.record _).bind fun _ => Keeps.pure _
  · exact (Keeps.forM fun _ _ => Keeps.record _).bind fun _ => Keeps.pure _

end Synchronization

end Reading

section Changing

variable (h : Regime M I E)

include h

namespace Bootstrap

theorem ensurePermission_carries :
    Carries I E (fun _ => True) ensurePermission fun p st => st.HasPermission p.id := by
  refine Carries.bind (Carries.reads (Permissions.find?_keeps h.failure _)
    fun _ => Permissions.find?_reads _) fun found => ?_
  cases found with
  | none =>
    refine Carries.bind ((Permissions.create_carries h _ _).weaken fun _ _ => trivial) fun p => ?_
    exact (Carries.record _).bind fun _ => .pure fun _ => id
  | some p => exact .pure fun st hst => Store.hasPermission_of_permission? (Except.ok.inj hst.2)

theorem ensureAdmin_carries (permission : Uuid) (username : String) :
    Carries I E (fun st => st.HasPermission permission) (ensureAdmin username)
      fun user st => user.user.handle.Known st ∧ st.HasPermission permission := by
  refine Carries.bind (Carries.reads (Principals.findUser?_keeps h.failure _ _)
    fun _ => ⟨_, Principals.findUser?_traces .managed username⟩) fun found => ?_
  cases found with
  | none =>
    refine Carries.bind ((Principals.createUser_carries h permission username _).weaken
      fun _ => And.left) fun user => ?_
    exact (Carries.record _).bind fun _ => .pure fun _ => id
  | some user =>
    refine .pure fun st hst => ⟨?_, hst.1⟩
    obtain ⟨u, hu, rfl⟩ := Option.map_eq_some_iff.mp (Except.ok.inj hst.2)
    exact Store.known_of_user? hu

theorem ensure_keeps (admin : Option String) : Keeps I E (ensure admin) := by
  refine Carries.keeps (Q := fun _ _ => True)
    ((ensurePermission_carries h).bind fun permission => ?_)
  split
  · exact .of_yields ((Keeps.pure ()).bind fun _ => Keeps.commit)
  · refine (ensureAdmin_carries h _ _).bind fun user => ?_
    have granted := Permissions.grantToUser_carries h user.user.handle permission
    exact granted.discard.bind fun _ => .of_yields Keeps.commit

end Bootstrap

namespace MembershipService

theorem add_keeps (principal : PrincipalHandle) (team : TeamHandle) :
    Keeps I E (add principal team) :=
  (Keeps.attempt _).bind fun _ =>
    (h.failure.guarded <|
      (Principals.addToTeam_keeps h _ _).bind fun _ => Keeps.commit.bind fun _ => Keeps.pure _).bind
    fun _ => (Keeps.record _).bind fun _ => Keeps.pure _

theorem remove_keeps (principal : PrincipalHandle) (team : TeamHandle) :
    Keeps I E (remove principal team) :=
  (Keeps.attempt _).bind fun _ =>
    (h.failure.guarded <|
      (Principals.removeFromTeam_keeps h _ _).bind fun _ =>
        Keeps.commit.bind fun _ => Keeps.pure _).bind
    fun _ => (Keeps.record _).bind fun _ => Keeps.pure _

end MembershipService

namespace Synchronization

theorem leaveAll_keeps (principal : String) (user : PrincipalHandle) (source : GroupSource)
    (teams : List Team) : Keeps I E (leaveAll principal user source teams) :=
  Keeps.forM fun team _ => (Keeps.record _).bind fun _ =>
    (MembershipService.remove_keeps h user team.handle).map

theorem joinGroup_keeps (principal : String) (user : PrincipalHandle) (source : GroupSource)
    (group : String) : Keeps I E (joinGroup principal user source group) :=
  (GroupMapping.teamsForGroup_keeps h.failure source group).bind fun _ => Keeps.forM fun team _ =>
    (Keeps.record _).bind fun _ => (MembershipService.add_keeps h user team.handle).map

theorem run_keeps (user : PrincipalHandle) (source : GroupSource) (asserted : List String) :
    Keeps I E (run user source asserted) := by
  refine (Principals.reload_keeps h.failure user).bind fun current => ?_
  have stale := Keeps.filterM fun team (_ : team ∈ current.teams) =>
    isStale_keeps (I := I) h.failure user.identifier source asserted team
  refine stale.bind fun stale => ?_
  refine (leaveAll_keeps h _ current.handle source stale).bind fun _ => ?_
  exact (Keeps.forM fun group _ => joinGroup_keeps h _ current.handle source group).bind fun _ =>
    Principals.reload_keeps h.failure current.handle

theorem synchronize_keeps (user : PrincipalHandle) (assertion : Assertion) :
    Keeps I E (synchronize user assertion) := by
  refine (Assertion.refuseLoneText_keeps h.failure assertion).bind fun _ => ?_
  have source : Keeps I E (sourceOf user.kind) := by
    unfold sourceOf
    split
    · exact Keeps.pure _
    · exact Keeps.throw (h.failure _ rfl)
  refine source.bind fun source => (Assertion.names_keeps h.failure assertion).bind fun names => ?_
  refine (Keeps.record _).bind fun _ => ?_
  exact (h.failure.guarded (run_keeps h user source _)).bind fun refreshed =>
    (Keeps.record _).bind fun _ => Keeps.pure _

end Synchronization

end Changing

end TeamAccess
