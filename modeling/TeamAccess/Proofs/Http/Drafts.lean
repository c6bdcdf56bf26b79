import TeamAccess.Proofs.Http.Gate
import TeamAccess.Proofs.Registry.Drafts
import TeamAccess.Proofs.Service.Shifts
import TeamAccess.Proofs.Service.Synchronization

/-! # What calls commit

If nothing fails from outside, the gate and the calls that only read leave the session as it was.
Every other call commits its change as a whole, after all that can refuse it, and what it still does
then cannot fail.
-/

namespace TeamAccess

open TeamAccess.Action

variable {st : Store}

/-- A team has been added together with an API key that belongs to it. -/
def Store.AddsTeamWithKey (st : Store) (name : String) (st' : Store) : Prop :=
  ∃ t k, t.name = name ∧ st'.teams = st.teams ++ [t] ∧ st'.apiKeys = st.apiKeys ++ [k] ∧
    ⟨.apiKey, k.id, t.id⟩ ∈ st'.memberships

theorem Store.addsTeamWithKey_of_added {rows st' : Store} {name key : String} {t : Team}
    {k : ApiKey} (ht : st.addTeam name = .ok (t, rows))
    (hk : rows.addApiKey key [t.id] = .ok (k, st')) : st.AddsTeamWithKey name st' := by
  obtain ⟨-, -, rfl, hr⟩ := insertTeam_ok ht
  obtain ⟨-, -, hm⟩ := addApiKey_ok hk
  refine ⟨⟨st.freshId, name⟩, k, rfl, ?_, ?_, ?_⟩
  · rw [addMemberships_ok hm, hr]
  · rw [addMemberships_ok hm, hr]
  · rw [addMemberships_ok hm]
    simp

theorem Evaluation.effective_rests (p : PrincipalHandle) : Rests st st (effective p) := by
  refine .guarded (.find (Principals.reload_finds p) fun r _ => ?_)
  refine .read (Permissions.directFor_reads r.kind r.id) ?_
  exact .read (.mapM fun t _ => Permissions.forTeam_reads t.id) (Rests.pure _)

/-- A decision that allows leaves the session as it was, and none changes what is committed. -/
theorem Decision.authorize_rests (hm : st.missing = []) (hd : st.Distinct)
    (p : Option PrincipalHandle) (required : List String) :
    Spares st st (authorize p required) fun d s =>
      s.durable = st ∧ (d = .allow → s.Drafting st st) := by
  intro s hs
  cases p with
  | none =>
    rw [authorize_none]
    exact ⟨hs.durable, nofun⟩
  | some p =>
    obtain ⟨allows, denies⟩ := authorize_calm (hs.calm hm) (hs.durable.trans hs.current.symm)
      (hs.current ▸ hd) p required
    by_cases hg : ∃ name ∈ required, s.current.Granted p name
    · rw [allows hg]
      exact ⟨hs.durable, fun _ => hs⟩
    · obtain ⟨o, reason, ha⟩ := denies hg
      rw [ha]
      exact ⟨hs.durable, nofun⟩

namespace Http

namespace Gate

variable {settings : Settings} {request : Request}

theorem caller_finds : ∃ o, Finds st (caller settings request) o := by
  unfold caller
  dsimp only
  split
  · exact ⟨_, .pure _⟩
  · exact ⟨none, _, .throw _⟩
  · exact ⟨none, _, .throw _⟩

/-- The gate changes nothing. -/
theorem pass_rests (hm : st.missing = []) (hd : st.Distinct) (access : Access) :
    Rests st st (pass settings request access) := by
  have named : Rests st st (caller settings request) := .of_finds caller_finds.choose_spec
  have known (ref : CallerRef) : Rests st st (principal? ref) :=
    .of_calm hm fun s hs hc => hc ▸ principal?_calm hs ref
  cases access with
  | anyone => exact Rests.pure none
  | principal =>
    have required : Rests st st (requirePrincipal settings request) := by
      refine named.bind fun ref => (known ref).bind fun found => ?_
      cases found with
      | some record => exact Rests.pure record
      | none => exact .throw _
    exact required.bind fun _ => Rests.pure _
  | administrator =>
    have required : Rests st st (requireAdministrator settings request) := by
      refine named.bind fun ref => (known ref).bind fun found => ?_
      refine Ensures.bind (Decision.authorize_rests hm hd _ _) fun d => ?_
      split
      · exact fun s hs => hs.2 rfl
      · exact fun s hs => hs.1
    exact required.bind fun _ => Rests.pure _

end Gate

namespace Call

/-- Whether a call only reads. -/
def reads : Call → Bool
  | .health | .readiness | .mintToken .. | .whoAmI | .myPermissions | .listPermissions | .listTeams
  | .teamMappings _ | .listOidcGroups | .listUsers _ => true
  | _ => false

variable {settings : Settings} {now : Int} {caller : Option PrincipalRecord} {call : Call}

section Reading

theorem self_finds : Finds st (self caller) caller := by
  cases caller with
  | some record => exact .pure record
  | none => exact ⟨_, .throw _⟩

theorem token_finds (subject : String) (kind : PrincipalKind) (minutes : Int) :
    ∃ o, Finds st (token settings now subject kind minutes) o := by
  unfold token
  dsimp only
  split
  · exact ⟨none, _, .bind_fails (.throw _)⟩
  · split
    · exact ⟨none, _, .bind_fails (.throw _)⟩
    · split
      · exact ⟨_, .pure _⟩
      · exact ⟨none, _, .throw _⟩

theorem mappings_finds (id : Uuid) :
    Finds st (mappings id) ((st.teamById? id).map fun t =>
      .ok (.obj [("ldap", .texts (st.groupsFor t.id .ldap)),
        ("oidc", .texts (st.groupsFor t.id .oidc))])) := by
  refine ((theTeam_finds id).bind fun record _ =>
    (Finds.reads (GroupMapping.groupsForTeam_reads .ldap record.team)).bind fun ldap _ =>
      (Finds.reads (GroupMapping.groupsForTeam_reads .oidc record.team)).bind fun oidc _ =>
        .pure _).cast ?_
  cases st.teamById? id <;> rfl

/-- A call that only reads changes nothing. -/
theorem answer_rests (hr : call.reads = true) : Rests st st (answer settings now caller call) := by
  cases call with
  | health | readiness => exact Rests.pure _
  | mintToken subject kind minutes =>
    exact .of_finds (token_finds subject kind minutes).choose_spec
  | whoAmI => exact .find self_finds fun _ _ => Rests.pure _
  | myPermissions =>
    exact .find self_finds fun me _ =>
      (Evaluation.effective_rests me.handle).bind fun _ => Rests.pure _
  | listPermissions => exact .read Permissions.list_reads (Rests.pure _)
  | listTeams => exact .read Teams.list_reads (Rests.pure _)
  | teamMappings id => exact .of_finds (mappings_finds id)
  | listOidcGroups => exact .read Groups.list_reads (Rests.pure _)
  | listUsers kind =>
    cases kind with
    | apiKey => exact .throw _
    | user k => exact .read (Principals.listUsers_reads k) (Rests.pure _)
  | _ => cases hr

end Reading

section Changing

theorem makeTeam_saves (name : String) (withApiKey : Bool) :
    Saves st st (makeTeam name withApiKey) fun _ st' =>
      withApiKey = true → st.AddsTeamWithKey name st' := by
  refine .read (Teams.find?_reads name) (.find (refuseIf_finds _ _) fun _ _ => ?_)
  refine (Teams.create_drafts name).bind fun team rows ht => ?_
  cases withApiKey with
  | false => exact Saves.commit (.record (.pure nofun))
  | true =>
    refine Drafts.newKey.bind fun key rows' hr => ?_
    subst hr
    refine (Principals.createApiKey_drafts key [team.team]).bind fun record st' hk => ?_
    exact Saves.commit (.record (.pure fun _ => Store.addsTeamWithKey_of_added ht hk.2))

theorem changeTeamName_saves (id : Uuid) (name : String) :
    Saves st st (changeTeamName id name) fun _ _ => True := by
  refine .read (Teams.find?_reads name) (.find (refuseIf_finds _ _) fun _ _ => ?_)
  refine (Teams.rename_drafts id name).bind fun o rows _ => ?_
  cases o with
  | none => exact .throw _
  | some team => exact Saves.commit (.pure trivial)

theorem makeUser_saves (kind : PrincipalKind) (username : String) (profile : UserKind → Profile) :
    Saves st st (makeUser kind username profile) fun _ _ => True := by
  cases kind with
  | apiKey => exact .throw _
  | user k =>
    refine .read ⟨_, Principals.findUser?_traces k username⟩ ?_
    refine .find (refuseIf_finds _ _) fun _ _ => ?_
    exact (Principals.createUser_drafts username (profile k)).bind fun user rows _ =>
      Saves.commit (.record (.pure trivial))

variable (hm : st.missing = [])

include hm

theorem mappings_closes {Q : Reply → Store → Prop} {id : Uuid} {t : Team}
    (ht : st.teamById? id = some t) (h : ∀ reply, Q reply st) : Closes st (mappings id) Q :=
  .of_finds hm ((mappings_finds id).cast (by rw [ht]; rfl)) (h _)

variable (hd : st.Distinct)

include hd

theorem keeps_of_found {kind : PrincipalKind} {username : String} {user : UserRecord}
    (hf : user ∈ (kind.userKind?.bind (st.user? · username)).map st.userRecord) :
    ∃ u, user = st.userRecord u ∧ st.Keeps u := by
  obtain ⟨u, hu, rfl⟩ := Option.map_eq_some_iff.mp hf
  obtain ⟨k, -, hu⟩ := Option.bind_eq_some_iff.mp hu
  exact ⟨u, rfl, hm, hd, List.mem_of_find?_eq_some hu⟩

theorem synchronized_saves (kind : PrincipalKind) (username : String) (groups : List String) :
    Saves st st (synchronized kind username groups) fun _ _ => True := by
  refine .find (theUser_finds kind username) fun user hf => ?_
  obtain ⟨u, rfl, keeps⟩ := keeps_of_found hm hd hf
  cases hs : u.kind.source? with
  | some source =>
    exact Saves.moves ((Synchronization.synchronize_moves keeps keeps.record? hs groups).caught _)
      (.pure trivial)
  | none =>
    have refused : Spares st st (Synchronization.synchronize u.handle (.groups groups))
        fun _ _ => False := by
      refine .find (.pure ()) fun _ _ => .find (Synchronization.sourceOf_finds _) ?_
      simp [User.handle, PrincipalKind.userKind?, hs]
    exact Ensures.bind (refused.rethrow fun f _ => by cases f <;> exact ⟨_, rfl⟩)
      fun _ _ => False.elim

/-- A call that changes something leaves its change committed, or fails before. -/
theorem answer_saves (hr : call.reads = false) :
    Saves st st (answer settings now caller call) fun _ st' =>
      ∀ name, call = .createTeam name true → st.AddsTeamWithKey name st' := by
  cases call with
  | createPermission name description =>
    refine .read (Permissions.find?_reads name) (.find (refuseIf_finds _ _) fun _ _ => ?_)
    exact (Permissions.create_drafts name description).bind fun _ _ _ =>
      Saves.commit (.record (.pure nofun))
  | createTeam name withApiKey =>
    refine Saves.imp (makeTeam_saves name withApiKey) fun _ st' keyed name' he => ?_
    injection he with hn hw
    exact hn ▸ keyed hw
  | renameTeam team name =>
    exact Saves.imp (changeTeamName_saves team name) fun _ _ _ => nofun
  | grantTeamPermission id name =>
    refine .find (theTeam_finds id) fun record hf => .find (thePermission_finds name) fun q _ => ?_
    exact (Permissions.grantToTeam_drafts record.team q).bind fun _ _ _ =>
      Saves.commit (.record (.pure nofun))
  | revokeTeamPermission id name =>
    refine .find (theTeam_finds id) fun record hf => .find (thePermission_finds name) fun q _ => ?_
    exact (Permissions.revokeFromTeam_drafts record.team q).bind fun _ _ _ =>
      Saves.commit (.record (.pure nofun))
  | createTeamApiKey id =>
    refine .find (theTeam_finds id) fun record hf => Drafts.newKey.bind fun key rows _ => ?_
    exact (Principals.createApiKey_drafts key [record.team]).bind fun _ _ _ =>
      Saves.commit (.record (.pure nofun))
  | regenerateApiKey key =>
    refine .read ⟨_, Principals.findApiKey?_traces key⟩ ?_
    cases (st.apiKey? key).map st.keyRecord with
    | none => exact .throw _
    | some found =>
      refine Drafts.newKey.bind fun key rows _ => ?_
      exact (Principals.regenerateApiKey_drafts found.apiKey.handle key).bind fun _ _ _ =>
        Saves.commit (.record (.pure nofun))
  | mapLdapGroup id dn =>
    refine .find (theTeam_finds id) fun record hf => ?_
    refine (Groups.mapLdap_drafts record.team dn).discard.bind fun _ rows hr => ?_
    obtain ⟨t, ht, rfl⟩ := Option.map_eq_some_iff.mp hf
    obtain ⟨_, rfl, -⟩ := hr
    have complete : (st.mapLdap t.id dn).missing = [] := by rw [Store.mapLdap_rows, hm]
    have stays : (st.mapLdap t.id dn).teamById? id = some t := by rwa [Store.mapLdap_rows]
    exact Saves.commit (.record (mappings_closes complete stays fun _ => nofun))
  | unmapLdapGroup id dn =>
    refine .find (theTeam_finds id) fun record _ => ?_
    exact (Groups.unmapLdap_drafts record.team dn).bind fun _ _ _ =>
      Saves.commit (.record (.pure nofun))
  | mapOidcGroup id name =>
    refine .find (theTeam_finds id) fun record hf => .find (theGroup_finds name) fun g _ => ?_
    refine (Groups.mapOidc_drafts record.team g).discard.bind fun _ rows hr => ?_
    obtain ⟨t, ht, rfl⟩ := Option.map_eq_some_iff.mp hf
    obtain ⟨_, rfl, -⟩ := hr
    have complete : (st.mapOidc t.id g.id).missing = [] := by rw [Store.mapOidc_rows, hm]
    have stays : (st.mapOidc t.id g.id).teamById? id = some t := by rwa [Store.mapOidc_rows]
    exact Saves.commit (.record (mappings_closes complete stays fun _ => nofun))
  | unmapOidcGroup id name =>
    refine .find (theTeam_finds id) fun record _ => .find (theGroup_finds name) fun g _ => ?_
    exact (Groups.unmapOidc_drafts record.team g).bind fun _ _ _ =>
      Saves.commit (.record (.pure nofun))
  | createOidcGroup name =>
    refine .read (Groups.find?_reads name) (.find (refuseIf_finds _ _) fun _ _ => ?_)
    exact (Groups.create_drafts name).bind fun _ _ _ => Saves.commit (.pure nofun)
  | createUser kind username fullname email dn subject =>
    exact Saves.imp (makeUser_saves kind username (profileOf fullname email dn subject))
      fun _ _ _ => nofun
  | grantUserPermission kind username name =>
    refine .find (theUser_finds kind username) fun user hf => ?_
    refine .find (thePermission_finds name) fun q _ => ?_
    exact (Permissions.grantToUser_drafts (p := user.user.handle) rfl rfl q).bind fun _ _ _ =>
      Saves.commit (.record (.pure nofun))
  | addUserToTeam kind username id =>
    refine .find (theUser_finds kind username) fun user hf => ?_
    refine .find (theTeam_finds id) fun team hg => ?_
    obtain ⟨u, rfl, keeps⟩ := keeps_of_found hm hd hf
    obtain ⟨t, ht, rfl⟩ := Option.map_eq_some_iff.mp hg
    obtain ⟨t', found, -⟩ := Store.teamById?_of_mem (List.mem_of_find?_eq_some ht)
    exact Saves.moves (MembershipService.add_moves hm keeps.record? found) (.pure nofun)
  | removeUserFromTeam kind username id =>
    refine .find (theUser_finds kind username) fun user hf => ?_
    refine .find (theTeam_finds id) fun team hg => ?_
    obtain ⟨u, rfl, keeps⟩ := keeps_of_found hm hd hf
    obtain ⟨t, ht, rfl⟩ := Option.map_eq_some_iff.mp hg
    have stored := List.mem_of_find?_eq_some ht
    exact Saves.moves (MembershipService.remove_moves hm keeps.record? rfl stored) (.pure nofun)
  | synchronizeUser kind username groups =>
    exact Saves.imp (synchronized_saves hm hd kind username groups) fun _ _ _ => nofun
  | _ => cases hr

end Changing

end Call

end Http

end TeamAccess
