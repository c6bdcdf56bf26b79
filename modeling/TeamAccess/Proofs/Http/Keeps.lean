import TeamAccess.Http.Server
import TeamAccess.Proofs.Service.Keeps

/-! # What requests keep

Serving a request stays within every closed invariant of the rows, at whatever point it ends. Behind
the gate a request is refused with 400, 404 or 409 only, and answered with 200 or 201 otherwise.
-/

namespace TeamAccess.Http

open TeamAccess.Action

variable {I : Store → Prop} {E : Failure → Prop}

/-- Whether a call was answered because it went well. -/
def Reply.WentWell (r : Reply) : Prop := r.status = 200 ∨ r.status = 201

theorem Reply.wentWell_ok (body : Json) : (Reply.ok body).WentWell := .inl rfl

theorem Reply.wentWell_created (body : Json) : (Reply.created body).WentWell := .inr rfl

theorem Reply.wentWell_changed (b : Bool) : (Reply.changed b).WentWell := .inl rfl

theorem Reply.WentWell.yields {act : Action Reply}
    (h : Carries I E (fun _ => True) act fun reply _ => reply.WentWell) :
    Yields I E Reply.WentWell act := h.yields (fun _ => trivial) fun _ _ => id

namespace Call

section Lookups

/-! A lookup that names what has to be there answers what the rows hold, or refuses the request. -/

variable {st : Store}

theorem theTeam_finds (id : Uuid) :
    Finds st (theTeam id) ((st.teamById? id).map st.teamRecord) :=
  .demand (Teams.get?_reads id) (fun _ => rfl) ⟨_, rfl⟩

theorem thePermission_finds (name : String) : Finds st (thePermission name) (st.permission? name) :=
  .demand (Permissions.find?_reads name) (fun _ => rfl) ⟨_, rfl⟩

theorem theGroup_finds (name : String) : Finds st (theGroup name) (st.oidcGroup? name) :=
  .demand (Groups.find?_reads name) (fun _ => rfl) ⟨_, rfl⟩

theorem theUser_finds (kind : PrincipalKind) (username : String) :
    Finds st (theUser kind username)
      ((kind.userKind?.bind (st.user? · username)).map st.userRecord) := by
  cases kind with
  | apiKey => exact ⟨_, .throw notUsers⟩
  | user k =>
    exact .demand ⟨_, Principals.findUser?_traces k username⟩ (fun _ => rfl) ⟨_, rfl⟩

theorem refuseIf_finds {α : Type} (found : Option α) (detail : String) :
    Finds st (refuseIf found detail) (if found.isSome then none else some ()) := by
  unfold refuseIf
  split
  · exact ⟨_, .throw _⟩
  · exact .pure ()

end Lookups

section

variable (h : Regime Store.HasTeam I E) (hr : ∀ status detail, status ∈ [400, 404, 409] →
  E (.refused status detail))

include h hr

theorem theTeam_keeps (id : Uuid) : Keeps I E (theTeam id) := by
  refine (Teams.get?_keeps h.failure id).lookup ?_ fun record => ?_
  · exact Keeps.throw (hr _ _ (by simp))
  · exact Keeps.pure record

theorem thePermission_keeps (name : String) : Keeps I E (thePermission name) := by
  refine (Permissions.find?_keeps h.failure name).lookup ?_ fun permission => ?_
  · exact Keeps.throw (hr _ _ (by simp))
  · exact Keeps.pure permission

theorem theGroup_keeps (name : String) : Keeps I E (theGroup name) := by
  refine (Groups.find?_keeps h.failure name).lookup ?_ fun group => ?_
  · exact Keeps.throw (hr _ _ (by simp))
  · exact Keeps.pure group

/-- The team of a path is stored. -/
theorem theTeam_carries {P : Store → Prop} (id : Uuid) :
    Carries I E P (theTeam id) fun record st => P st ∧ st.HasTeam record.team.id := by
  refine (Carries.finds (theTeam_keeps h hr id) fun _ => theTeam_finds id).imp ?_
  rintro record st ⟨hp, hf⟩
  obtain ⟨t, ht, rfl⟩ := Option.map_eq_some_iff.mp hf
  exact ⟨hp, Store.hasTeam_of_teamById? ht⟩

/-- The permission of a path is stored. -/
theorem thePermission_carries {P : Store → Prop} (name : String) :
    Carries I E P (thePermission name) fun permission st => P st ∧ st.HasPermission permission.id :=
  (Carries.finds (thePermission_keeps h hr name) fun _ => thePermission_finds name).imp
    fun _ _ => And.imp_right Store.hasPermission_of_permission?

theorem theUser_keeps (kind : PrincipalKind) (username : String) :
    Keeps I E (theUser kind username) := by
  unfold theUser
  split
  · exact Yields.throw_bind (hr _ _ (by simp))
  · refine (Principals.findUser?_keeps h.failure kind username).lookup ?_ fun user => ?_
    · exact Keeps.throw (hr _ _ (by simp))
    · exact Keeps.pure user

/-- The user of a path is stored. -/
theorem theUser_carries {P : Store → Prop} (kind : PrincipalKind) (username : String) :
    Carries I E P (theUser kind username) fun user st => P st ∧ user.user.handle.Known st := by
  refine (Carries.finds (theUser_keeps h hr _ username) fun _ => theUser_finds kind username).imp ?_
  rintro user st ⟨hp, hf⟩
  obtain ⟨u, hu, rfl⟩ := Option.map_eq_some_iff.mp hf
  obtain ⟨k, -, hu⟩ := Option.bind_eq_some_iff.mp hu
  exact ⟨hp, Store.known_of_user? hu⟩

omit h in
theorem refuseIf_keeps {α : Type} (found : Option α) (detail : String) :
    Keeps I E (refuseIf found detail) := by
  unfold refuseIf
  split
  · exact Keeps.throw (hr _ _ (by simp))
  · exact Keeps.pure ()

theorem mappings_yields (id : Uuid) : Yields I E Reply.WentWell (mappings id) :=
  (theTeam_keeps h hr id).bind fun _ =>
    (GroupMapping.groupsForTeam_keeps h.failure _ _).bind fun _ =>
      (GroupMapping.groupsForTeam_keeps h.failure _ _).bind fun _ =>
        Yields.pure (Reply.wentWell_ok _)

omit hr in
/-- An API key is made for a stored team. -/
theorem makeKey_yields {R : Reply → Prop} (team : Team) {next : KeyRecord → Action Reply}
    (hn : ∀ record, Yields I E R (next record)) :
    Carries I E (fun st => st.HasTeam team.id)
      (do next (← Principals.createApiKey (← newKey) [team])) fun reply _ => R reply := by
  refine Carries.newKey.bind fun key => ?_
  refine Carries.bind ((Principals.createApiKey_carries h key [team]).weaken fun st ht t hm => ?_)
    fun record => .of_yields (hn record)
  rwa [List.mem_singleton.mp hm]

theorem makeTeam_yields (name : String) (withApiKey : Bool) :
    Yields I E Reply.WentWell (makeTeam name withApiKey) := by
  refine (Teams.find?_keeps h.failure name).bind fun found => ?_
  refine (refuseIf_keeps hr _ _).bind fun _ => ?_
  refine Reply.WentWell.yields ((Teams.create_carries h name).bind fun team => ?_)
  have finish (key : Option String) : Yields I E Reply.WentWell (do
      commit
      record (.teamCreated name withApiKey)
      return Reply.created
        (.obj (Reply.teamMembers team ++ [("api_key", .ofText? key)]))) :=
    Keeps.commit.bind fun _ => (Keeps.record _).bind fun _ =>
      Yields.pure (Reply.wentWell_created _)
  dsimp only
  split
  · exact makeKey_yields h team.team fun record => (Keeps.pure _).bind fun key => finish key
  · exact .of_yields ((Keeps.pure _).bind fun key => finish key)

theorem changeTeamName_yields (id : Uuid) (name : String) :
    Yields I E Reply.WentWell (changeTeamName id name) := by
  refine (Teams.find?_keeps h.failure name).bind fun clash => ?_
  refine (refuseIf_keeps hr _ _).bind fun _ => ?_
  refine (Teams.rename_keeps h id name).lookup ?_ fun team => ?_
  · exact Yields.throw (hr _ _ (by simp))
  · exact Keeps.commit.bind fun _ => Yields.pure (Reply.wentWell_ok _)

theorem makeUser_yields (kind : PrincipalKind) (username : String)
    (profile : UserKind → Profile) :
    Yields I E Reply.WentWell (makeUser kind username profile) := by
  cases kind with
  | apiKey => exact Yields.throw (hr _ _ (by simp))
  | user k =>
    refine (Principals.findUser?_keeps h.failure _ _).bind fun _ => ?_
    exact (refuseIf_keeps hr _ _).bind fun _ => (Principals.createUser_keeps h _ _).bind fun _ =>
      Keeps.commit.bind fun _ => (Keeps.record _).bind fun _ =>
        Yields.pure (Reply.wentWell_created _)

theorem synchronized_yields (kind : PrincipalKind) (username : String) (groups : List String) :
    Yields I E Reply.WentWell (synchronized kind username groups) := by
  refine (theUser_keeps h hr kind username).bind fun user => Keeps.bind ?_ fun refreshed => ?_
  · refine (Synchronization.synchronize_keeps h _ _).tryCatch fun f hf => ?_
    cases f with
    | notSynchronized k => exact Keeps.throw (hr _ _ (by simp))
    | _ => exact Keeps.throw hf
  · cases refreshed with
    | user r => exact Yields.pure (Reply.wentWell_ok _)
    | apiKey r => exact Yields.throw (hr _ _ (by simp))

theorem token_yields (settings : Settings) (now : Int) (subject : String) (kind : PrincipalKind)
    (minutes : Int) : Yields I E Reply.WentWell (token settings now subject kind minutes) := by
  unfold token
  dsimp only
  by_cases hp : settings.env = .prod
  · rw [if_pos hp]
    exact Yields.throw_bind (hr _ _ (by simp))
  · rw [if_neg hp]
    by_cases hk : kind = .apiKey
    · rw [if_pos hk]
      exact Yields.throw_bind (hr _ _ (by simp))
    · rw [if_neg hk]
      cases Token.issue settings.tokenConfig subject kind now (minutes * 60 * Token.second) with
      | ok token => exact Yields.pure (Reply.wentWell_ok _)
      | error e => exact Yields.throw (h.failure _ rfl)

omit h hr in
theorem self_keeps {caller : Option PrincipalRecord} (hc : caller = none → E Gate.forbidden) :
    Keeps I E (self caller) := by
  cases caller with
  | some record => exact Keeps.pure record
  | none => exact Keeps.throw (hc rfl)

/-- What a call answers, and what it keeps wherever it is cut off. -/
theorem answer_yields (settings : Settings) (now : Int) {caller : Option PrincipalRecord}
    (hc : caller = none → E Gate.forbidden) (call : Call) :
    Yields I E Reply.WentWell (answer settings now caller call) := by
  have ok (body : Json) : Yields I E Reply.WentWell (pure (Reply.ok body)) :=
    Yields.pure (Reply.wentWell_ok body)
  have created (body : Json) : Yields I E Reply.WentWell (pure (Reply.created body)) :=
    Yields.pure (Reply.wentWell_created body)
  have changed (b : Bool) : Yields I E Reply.WentWell (pure (Reply.changed b)) :=
    Yields.pure (Reply.wentWell_changed b)
  cases call with
  | health => exact ok _
  | readiness => exact ok _
  | mintToken subject kind minutes => exact token_yields h hr settings now subject kind minutes
  | whoAmI => exact (self_keeps hc).bind fun _ => ok _
  | myPermissions =>
    exact (self_keeps hc).bind fun _ => (Evaluation.effective_keeps h.failure _).bind fun _ => ok _
  | createPermission name description =>
    exact (Permissions.find?_keeps h.failure _).bind fun _ => (refuseIf_keeps hr _ _).bind fun _ =>
      (Permissions.create_keeps h _ _).bind fun _ => Keeps.commit.bind fun _ =>
        (Keeps.record _).bind fun _ => created _
  | listPermissions => exact (Permissions.list_keeps h.failure).bind fun _ => ok _
  | createTeam name withApiKey => exact makeTeam_yields h hr name withApiKey
  | listTeams => exact (Teams.list_keeps h.failure).bind fun _ => ok _
  | renameTeam team name => exact changeTeamName_yields h hr team name
  | grantTeamPermission id name =>
    refine Reply.WentWell.yields ((theTeam_carries h hr id).bind fun record =>
      (thePermission_carries h hr name).bind fun permission => ?_)
    refine Carries.bind ((Permissions.grantToTeam_carries h record.team.handle permission).weaken
      fun st hst => ⟨record.team.known hst.1.2, hst.2⟩) fun _ => .of_yields ?_
    exact Keeps.commit.bind fun _ => (Keeps.record _).bind fun _ => changed _
  | revokeTeamPermission id name =>
    exact (theTeam_keeps h hr _).bind fun _ => (thePermission_keeps h hr _).bind fun _ =>
      (Permissions.revokeFromTeam_keeps h _ _).bind fun _ => Keeps.commit.bind fun _ =>
        (Keeps.record _).bind fun _ => changed _
  | createTeamApiKey id =>
    refine Reply.WentWell.yields ((theTeam_carries h hr id).bind fun record => ?_)
    refine (makeKey_yields h record.team fun _ => ?_).weaken fun _ => And.right
    exact Keeps.commit.bind fun _ => (Keeps.record _).bind fun _ => created _
  | regenerateApiKey key =>
    refine (Principals.findApiKey?_keeps h.failure key).lookup ?_ fun found => ?_
    · exact Yields.throw (hr _ _ (by simp))
    · exact Keeps.newKey.bind fun _ => (Principals.regenerateApiKey_keeps h _ _).bind fun _ =>
        Keeps.commit.bind fun _ => (Keeps.record _).bind fun _ => ok _
  | teamMappings id => exact mappings_yields h hr id
  | mapLdapGroup id dn =>
    refine Reply.WentWell.yields ((theTeam_carries h hr id).bind fun record => ?_)
    have mapped := (Groups.mapLdap_carries h record.team.handle dn).weaken fun st
      (hst : True ∧ st.HasTeam record.team.id) => record.team.known hst.2 rfl
    refine mapped.discard.bind fun _ => .of_yields ?_
    exact Keeps.commit.bind fun _ => (Keeps.record _).bind fun _ => mappings_yields h hr id
  | unmapLdapGroup id dn =>
    exact (theTeam_keeps h hr _).bind fun _ => (Groups.unmapLdap_keeps h _ _).bind fun _ =>
      Keeps.commit.bind fun _ => (Keeps.record _).bind fun _ => changed _
  | mapOidcGroup id name =>
    refine Reply.WentWell.yields ((theTeam_carries h hr id).bind fun record => ?_)
    refine Carries.bind (.finds (theGroup_keeps h hr name) fun _ => theGroup_finds name)
      fun group => ?_
    have mapped := (Groups.mapOidc_carries h record.team.handle group).weaken fun st
      (hst : (True ∧ st.HasTeam record.team.id) ∧ group ∈ st.oidcGroup? name) =>
        ⟨Store.hasGroup_of_oidcGroup? hst.2, record.team.known hst.1.2 rfl⟩
    refine mapped.discard.bind fun _ => .of_yields ?_
    exact Keeps.commit.bind fun _ => (Keeps.record _).bind fun _ => mappings_yields h hr id
  | unmapOidcGroup id name =>
    exact (theTeam_keeps h hr _).bind fun _ => (theGroup_keeps h hr _).bind fun _ =>
      (Groups.unmapOidc_keeps h _ _).bind fun _ => Keeps.commit.bind fun _ =>
        (Keeps.record _).bind fun _ => changed _
  | createOidcGroup name =>
    exact (Groups.find?_keeps h.failure _).bind fun _ => (refuseIf_keeps hr _ _).bind fun _ =>
      (Groups.create_keeps h _).bind fun _ => Keeps.commit.bind fun _ => created _
  | listOidcGroups => exact (Groups.list_keeps h.failure).bind fun _ => ok _
  | createUser kind username fullname email dn subject =>
    exact makeUser_yields h hr kind username _
  | listUsers kind =>
    have list : Yields I E Reply.WentWell (do
        return Reply.ok (.arr ((← Principals.listUsers kind).map Reply.user))) :=
      (Principals.listUsers_keeps h.failure kind).bind fun _ => ok _
    unfold answer
    dsimp only
    split
    · exact Yields.throw_bind (hr _ _ (by simp))
    · exact list
  | grantUserPermission kind username name =>
    refine Reply.WentWell.yields ((theUser_carries h hr kind username).bind fun user =>
      (thePermission_carries h hr name).bind fun permission => ?_)
    refine Carries.bind ((Permissions.grantToUser_carries h user.user.handle permission).weaken
      fun st hst => ⟨hst.1.2, hst.2⟩) fun _ => .of_yields ?_
    exact Keeps.commit.bind fun _ => (Keeps.record _).bind fun _ => changed _
  | addUserToTeam kind username id =>
    exact (theUser_keeps h hr _ _).bind fun _ => (theTeam_keeps h hr _).bind fun _ =>
      (MembershipService.add_keeps h _ _).bind fun _ => changed _
  | removeUserFromTeam kind username id =>
    exact (theUser_keeps h hr _ _).bind fun _ => (theTeam_keeps h hr _).bind fun _ =>
      (MembershipService.remove_keeps h _ _).bind fun _ => changed _
  | synchronizeUser kind username groups => exact synchronized_yields h hr kind username groups

end

end Call

section Requests

variable (hI : Store.Closed Store.HasTeam I)

include hI

theorem Gate.pass_keeps (settings : Settings) (request : Request) (access : Access) :
    Keeps I (fun _ => True) (Gate.pass settings request access) := by
  have h : Regime Store.HasTeam I fun _ => True := ⟨hI, fun _ _ => trivial⟩
  have caller : Keeps I (fun _ => True) (Gate.caller settings request) := by
    unfold Gate.caller
    dsimp only
    split
    · exact Keeps.pure _
    · exact Keeps.throw trivial
    · exact Keeps.throw trivial
  have principal (ref : CallerRef) : Keeps I (fun _ => True) (Gate.principal? ref) := by
    refine (h.failure.guarded (Principals.resolve?_keeps h.failure _ _)).tryCatch fun f _ => ?_
    cases f with
    | unavailable reason => exact Keeps.pure none
    | _ => exact Keeps.throw trivial
  cases access with
  | anyone => exact Keeps.pure none
  | principal =>
    have required : Keeps I (fun _ => True) (Gate.requirePrincipal settings request) := by
      refine caller.bind fun ref => (principal ref).bind fun found => ?_
      cases found with
      | some record => exact Keeps.pure record
      | none => exact Keeps.throw trivial
    exact required.bind fun _ => Keeps.pure _
  | administrator =>
    have required : Keeps I (fun _ => True) (Gate.requireAdministrator settings request) := by
      refine caller.bind fun ref => (principal ref).bind fun found => ?_
      refine (Decision.authorize_keeps h.failure _ _).bind fun decision => ?_
      split
      · exact Keeps.pure _
      · exact Keeps.throw trivial
    exact required.bind fun _ => Keeps.pure _

namespace Server

theorem serve_keeps (settings : Settings) (request : Request) (endpoint : Endpoint)
    (parameters : Parameters) :
    Keeps I (fun _ => True) (serve settings request endpoint parameters) := by
  have h : Regime Store.HasTeam I fun _ => True := ⟨hI, fun _ _ => trivial⟩
  unfold serve
  split
  · exact Keeps.pure _
  · refine (Gate.pass_keeps hI settings request endpoint.access).bind fun caller => ?_
    split
    · exact Keeps.pure _
    · exact (Call.answer_yields h (fun _ _ _ => trivial) settings _ (fun _ => trivial) _).keeps

theorem handle_keeps (server : Server) (outage : Option Outage) (request : Request)
    (hs : I server.store) : I (server.handle outage request).2.store := by
  unfold handle
  dsimp only
  split
  · rename_i endpoint parameters _
    have hk := serve_keeps hI server.settings request endpoint parameters
      { Session.start server.store outage with keys := server.keys } ⟨hs, hs, fun _ _ => trivial⟩
    unfold handleEndpoint
    revert hk
    dsimp only
    cases serve server.settings request endpoint parameters
      { Session.start server.store outage with keys := server.keys } with
    | ok reply s => exact fun hk => hk.1.durable
    | error f s => exact fun hk => hk.1.durable
  all_goals exact hs

theorem start_keeps {store : Store} (hc : I store → I store.createTables) (settings : Settings)
    (keys : KeySupply) (hs : I store) :
    ∀ server, (start settings store keys).outcome = .ok server → I server.store := by
  have h : Regime Store.HasTeam I fun _ => True := ⟨hI, fun _ _ => trivial⟩
  have prepared : I (prepare settings store) := by
    unfold prepare
    split
    · exact hs
    · exact hc hs
  have hk := Bootstrap.ensure_keeps h settings.bootstrapAdmin
    (Session.start (prepare settings store)) ⟨prepared, prepared, fun _ _ => trivial⟩
  intro server
  unfold start
  revert hk
  dsimp only
  cases Bootstrap.ensure settings.bootstrapAdmin (Session.start (prepare settings store)) with
  | ok u s =>
    rintro hk ⟨⟩
    exact hk.1.durable
  | error f s =>
    rintro - ⟨⟩

end Server

end Requests

end TeamAccess.Http
