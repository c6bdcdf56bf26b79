import TeamAccess.Proofs.Registry.Reads
import TeamAccess.Proofs.Store.Closed

/-! # What the registry keeps

The operations of the registry stay within every closed invariant of the rows, and none of them
refuses a request.
-/

namespace TeamAccess

/-- Whether a request is refused on purpose. -/
def Failure.isRefusal : Failure → Bool
  | .refused .. => true
  | _ => false

/-- A class of failures that leaves out at most refusals of requests. -/
def Action.Lenient (E : Failure → Prop) : Prop := ∀ f : Failure, f.isRefusal = false → E f

/-- A closed invariant, and a class of failures that leaves out at most refusals of requests. -/
structure Action.Regime (M : Store → Uuid → Prop) (I : Store → Prop) (E : Failure → Prop) :
    Prop where
  closed : Store.Closed M I
  failure : Lenient E

/-- A team that the session tracks is stored. -/
def TeamHandle.Known (st : Store) (handle : TeamHandle) : Prop :=
  handle.tracked = true → ∀ id ∈ handle.id, st.HasTeam id

/-- A principal that the session tracks is stored. -/
def PrincipalHandle.Known (st : Store) (handle : PrincipalHandle) : Prop :=
  handle.tracked = true → ∀ id ∈ handle.id, st.HasPrincipal handle.kind id

theorem Team.known {st : Store} (t : Team) (h : st.HasTeam t.id) : t.handle.Known st := by
  rintro - _ ⟨⟩
  exact h

open TeamAccess.Action

variable {M : Store → Uuid → Prop} {I : Store → Prop} {E : Failure → Prop}

namespace Store

variable {st : Store} {r : PrincipalRecord}

/-- A principal that has been read by its identifier is stored. -/
theorem stored_of_record? {p : PrincipalHandle} (h : st.record? p = some r) :
    st.HasPrincipal r.kind r.id := by
  cases hp : p.kind with
  | user k =>
    obtain ⟨u, -, hu, rfl⟩ := record?_user hp h
    exact ⟨u, List.mem_of_find?_eq_some hu, rfl, rfl⟩
  | apiKey =>
    obtain ⟨k, -, hk, rfl⟩ := record?_apiKey hp h
    exact ⟨k, List.mem_of_find?_eq_some hk, rfl⟩

/-- The record of a stored principal is found by its identifier. -/
theorem record?_of_stored {p : PrincipalHandle} {id : Uuid} (hi : p.id = some id)
    (h : st.HasPrincipal p.kind id) : ∃ r, st.record? p = some r := by
  rw [record?, hi]
  revert h
  cases p.kind with
  | user k =>
    rintro ⟨u, hu, hk, hid⟩
    have found : (st.userById? k id).isSome := List.find?_isSome.mpr ⟨u, hu, by simp [hk, hid]⟩
    obtain ⟨u', hf⟩ := Option.isSome_iff_exists.mp found
    exact ⟨_, congrArg (Option.map _) hf⟩
  | apiKey =>
    rintro ⟨k, hk, hid⟩
    have found : (st.apiKeyById? id).isSome := List.find?_isSome.mpr ⟨k, hk, by simp [hid]⟩
    obtain ⟨k', hf⟩ := Option.isSome_iff_exists.mp found
    exact ⟨_, congrArg (Option.map _) hf⟩

theorem record?_eq_none {p : PrincipalHandle}
    (h : ∀ id, p.id = some id → ¬ st.HasPrincipal p.kind id) : st.record? p = none := by
  refine Option.eq_none_iff_forall_ne_some.mpr fun r hr => h r.id (id_of_record? hr) ?_
  rw [kind_of_record? hr]
  exact stored_of_record? hr

theorem known_of_user? {k : UserKind} {name : String} {u : User} (h : st.user? k name = some u) :
    u.handle.Known st := by
  rintro - _ ⟨⟩
  exact ⟨u, List.mem_of_find?_eq_some h, rfl, rfl⟩

theorem known_of_resolve? {kind : PrincipalKind} {name : String}
    (h : st.resolve? kind name = some r) : r.handle.Known st := by
  cases kind with
  | user k =>
    obtain ⟨u, hu, rfl⟩ := Option.map_eq_some_iff.mp h
    exact known_of_user? hu
  | apiKey =>
    obtain ⟨k, hk, rfl⟩ := Option.map_eq_some_iff.mp h
    rintro - _ ⟨⟩
    exact ⟨k, List.mem_of_find?_eq_some hk, rfl⟩

theorem hasPermission_of_permission? {name : String} {p : Permission}
    (h : st.permission? name = some p) : st.HasPermission p.id :=
  ⟨p, List.mem_of_find?_eq_some h, rfl⟩

theorem hasGroup_of_oidcGroup? {name : String} {g : OidcGroup}
    (h : st.oidcGroup? name = some g) : st.HasGroup g.id :=
  ⟨g, List.mem_of_find?_eq_some h, rfl⟩

theorem hasTeam_of_teamById? {id : Uuid} {t : Team} (h : st.teamById? id = some t) :
    st.HasTeam t.id := ⟨t, List.mem_of_find?_eq_some h, rfl⟩

end Store

namespace Action.Lenient

variable {α : Type} {x : Action α}

theorem fault (h : Lenient E) (fault : StoreFault) : E (.store fault) := h _ rfl

theorem guarded (h : Lenient E) (hx : Keeps I E x) : Keeps I E (guarded x) :=
  Keeps.guarded (fun _ => h _ rfl) hx

theorem reads (h : Lenient E) (hx : ∀ st, ∃ a, Reads st x (.ok a)) : Keeps I E x :=
  Reads.keeps (fun _ => h.fault _) hx

theorem reads_or (h : Lenient E) (f : Failure) (hf : f.isRefusal = false)
    (hx : ∀ st, ∃ o : Option α, Reads st x (o.elim (.error f) .ok)) : Keeps I E x :=
  Reads.yields (fun _ => h.fault _) fun st => by
    obtain ⟨o, ho⟩ := hx st
    refine ⟨_, ho, fun _ _ => trivial, fun g hg => ?_⟩
    cases o with
    | none => exact (Except.error.inj hg) ▸ h f hf
    | some a => simp at hg

end Action.Lenient

theorem Action.Regime.fault (h : Regime M I E) (fault : StoreFault) : E (.store fault) :=
  h.failure.fault fault

section Reading

variable (h : Lenient E)

include h

theorem Action.loadKeys_keeps (keys : List ApiKey) : Keeps I E (loadKeys keys) :=
  h.reads fun _ => ⟨_, loadKeys_reads keys⟩

namespace Teams

theorem get?_keeps (id : Uuid) : Keeps I E (get? id) := h.reads fun _ => ⟨_, get?_reads id⟩

theorem find?_keeps (name : String) : Keeps I E (find? name) :=
  h.reads fun _ => ⟨_, find?_reads name⟩

theorem list_keeps : Keeps I E list := h.reads fun _ => ⟨_, list_reads⟩

end Teams

namespace Permissions

theorem find?_keeps (name : String) : Keeps I E (find? name) :=
  h.reads fun _ => ⟨_, find?_reads name⟩

theorem list_keeps : Keeps I E list := h.reads fun _ => ⟨_, list_reads⟩

theorem directlyHas_keeps (kind : PrincipalKind) (id : Uuid) (name : String) :
    Keeps I E (directlyHas kind id name) := h.reads fun _ => ⟨_, directlyHas_reads kind id name⟩

theorem teamHas_keeps (team : Uuid) (name : String) : Keeps I E (teamHas team name) :=
  h.reads fun _ => ⟨_, _, teamHas_traces team name⟩

theorem directFor_keeps (kind : PrincipalKind) (id : Uuid) : Keeps I E (directFor kind id) :=
  h.reads fun _ => ⟨_, directFor_reads kind id⟩

theorem forTeam_keeps (team : Uuid) : Keeps I E (forTeam team) :=
  h.reads fun _ => ⟨_, forTeam_reads team⟩

end Permissions

namespace Groups

theorem find?_keeps (name : String) : Keeps I E (find? name) :=
  h.reads fun _ => ⟨_, find?_reads name⟩

theorem list_keeps : Keeps I E list := h.reads fun _ => ⟨_, list_reads⟩

theorem mappedTeam_keeps (source : GroupSource) (team : TeamHandle) :
    Keeps I E (mappedTeam source team) := by
  unfold mappedTeam
  split
  · exact Keeps.pure _
  · exact Keeps.throw (h.fault _)

theorem teamsForDn_keeps (dn : String) : Keeps I E (teamsForDn dn) :=
  h.reads fun _ => ⟨_, teamsForDn_reads dn⟩

theorem dnsForTeam_keeps (team : TeamHandle) : Keeps I E (dnsForTeam team) :=
  h.reads fun _ => ⟨_, dnsForTeam_reads team⟩

theorem teamsForGroup_keeps (group : OidcGroup) : Keeps I E (teamsForGroup group) :=
  h.reads fun _ => ⟨_, teamsForGroup_reads group⟩

theorem namesForTeam_keeps (team : TeamHandle) : Keeps I E (namesForTeam team) :=
  h.reads fun _ => ⟨_, namesForTeam_reads team⟩

end Groups

namespace Principals

theorem userKind_keeps (kind : PrincipalKind) : Keeps I E (userKind kind) := by
  cases kind with
  | user k => exact Keeps.pure k
  | apiKey => exact Keeps.throw (h _ rfl)

theorem findUser?_keeps (kind : PrincipalKind) (username : String) :
    Keeps I E (findUser? kind username) := by
  cases kind with
  | user k => exact h.reads fun _ => ⟨_, _, findUser?_traces k username⟩
  | apiKey => exact h.reads_or _ rfl fun _ => ⟨none, findUser?_apiKey_reads username⟩

theorem findAnyUser?_keeps (username : String) : Keeps I E (findAnyUser? username) :=
  h.reads fun _ => ⟨_, findIn?_reads username _⟩

theorem listUsers_keeps (kind : PrincipalKind) : Keeps I E (listUsers kind) := by
  cases kind with
  | user k => exact h.reads fun _ => ⟨_, listUsers_reads k⟩
  | apiKey => exact h.reads_or _ rfl fun _ => ⟨none, listUsers_apiKey_reads⟩

theorem findApiKey?_keeps (key : String) : Keeps I E (findApiKey? key) :=
  h.reads fun _ => ⟨_, _, findApiKey?_traces key⟩

theorem resolve?_keeps (kind : PrincipalKind) (identifier : String) :
    Keeps I E (resolve? kind identifier) := h.reads fun _ => ⟨_, resolve?_reads kind identifier⟩

theorem reload_keeps (p : PrincipalHandle) : Keeps I E (reload p) :=
  h.reads_or p.notFound rfl fun _ => ⟨_, _, reload_traces p⟩

theorem lock_keeps (p : PrincipalHandle) : Keeps I E (lock p) :=
  h.reads_or p.notFound rfl fun _ => ⟨_, _, lock_traces p⟩

theorem target_keeps (team : TeamHandle) : Keeps I E (target team) :=
  h.reads_or team.notFound rfl fun _ => ⟨_, target_reads team⟩

end Principals

end Reading

section Changing

variable (h : Regime M I E)

include h

namespace Teams

theorem create_carries (name : String) :
    Carries I E (fun _ => True) (create name) fun record st => st.HasTeam record.team.id := by
  refine (Carries.attempt _).bind fun _ =>
    Carries.bind (Q := fun t st => st.HasTeam t.id) (.change h.fault ?_) fun t => .pure fun _ => id
  intro s t s' hs _ he
  refine ⟨h.closed.insertTeam hs he, ?_⟩
  obtain ⟨-, -, rfl, rfl⟩ := Store.insertTeam_ok he
  exact ⟨_, by simp, rfl⟩

theorem create_keeps (name : String) : Keeps I E (create name) := (create_carries h name).keeps

theorem rename_keeps (id : Uuid) (name : String) : Keeps I E (rename id name) := by
  refine (Keeps.attempt _).bind fun _ => ?_
  refine (Reads.keeps (fun _ => h.fault _) fun st => ⟨_, Reads.query _ _⟩).bind fun team => ?_
  refine (h.failure.reads fun _ => ⟨_, loaded_reads team⟩).bind fun record => ?_
  cases record with
  | none => exact Keeps.pure _
  | some record =>
    exact (Keeps.change h.fault fun _ _ _ hs => h.closed.renameTeam hs).bind fun _ => Keeps.pure _

/-- Storing the teams of some handles, of which the tracked ones are stored. -/
theorem store_carries {handles : List TeamHandle} {team : TeamHandle} (hm : team ∈ handles)
    (known : List Team) :
    Carries I E
      (fun st => (∀ handle ∈ handles, handle.Known st) ∧ ∀ t ∈ known, st.HasTeam t.id)
      (store team)
      fun t st => (∀ handle ∈ handles, handle.Known st) ∧ ∀ t' ∈ t :: known, st.HasTeam t'.id := by
  have insert {t : Team} : ∀ s t' s', I s →
      ((∀ handle ∈ handles, handle.Known s) ∧ ∀ t ∈ known, s.HasTeam t.id) →
      s.insertTeam t = .ok (t', s') → I s' ∧ (∀ handle ∈ handles, handle.Known s') ∧
        ∀ t ∈ t' :: known, s'.HasTeam t.id := by
    rintro s t' s' hs ⟨hh, hk⟩ he
    refine ⟨h.closed.insertTeam hs he, ?_⟩
    obtain ⟨-, -, rfl, rfl⟩ := Store.insertTeam_ok he
    refine ⟨fun handle hmem htr id hid => (hh handle hmem htr id hid).insert _, fun t ht => ?_⟩
    rcases List.mem_cons.mp ht with rfl | ht
    · exact ⟨t, by simp, rfl⟩
    · exact (hk t ht).insert _
  unfold store
  split
  · rename_i id hid htr
    refine .pure fun st hst => ⟨hst.1, fun t ht => ?_⟩
    rcases List.mem_cons.mp ht with rfl | ht
    · exact hst.1 team hm htr id hid
    · exact hst.2 t ht
  · exact .change h.fault insert
  · exact .change h.fault fun s t' s' => insert s t' s'

end Teams

namespace Permissions

theorem create_carries (name : String) (description : Option String) :
    Carries I E (fun _ => True) (create name description) fun p st => st.HasPermission p.id := by
  refine (Carries.attempt _).bind fun _ => .change h.fault fun s p s' hs _ he => ?_
  refine ⟨h.closed.addPermission hs he, ?_⟩
  obtain ⟨-, -, rfl⟩ := Store.addPermission_ok he
  exact ⟨p, by simp, rfl⟩

theorem create_keeps (name : String) (description : Option String) :
    Keeps I E (create name description) := (create_carries h name description).keeps

/-- A stored permission is granted to a team that is stored if the session tracks it. -/
theorem grantToTeam_carries (team : TeamHandle) (permission : Permission) :
    Carries I E (fun st => team.Known st ∧ st.HasPermission permission.id)
      (grantToTeam team permission) fun _ _ => True := by
  refine (Carries.attempt _).bind fun _ => ?_
  split
  · rename_i id hid htr
    refine (Carries.ask _).bind fun held => ?_
    split
    · exact .pure fun _ _ => trivial
    · refine Carries.bind (.update h.fault fun s hs hst => ?_) fun _ => .pure fun _ _ => trivial
      exact h.closed.grantTeam _ hs (hst.1 htr id hid) hst.2
  · exact .pure fun _ _ => trivial

theorem revokeFromTeam_keeps (team : TeamHandle) (permission : Permission) :
    Keeps I E (revokeFromTeam team permission) := by
  refine (Keeps.attempt _).bind fun _ => ?_
  split
  · refine (Keeps.ask _).bind fun held => ?_
    split
    · exact Keeps.pure _
    · exact (Keeps.update h.fault fun _ => h.closed.revokeTeam _).bind fun _ => Keeps.pure _
  · exact Keeps.pure _

/-- A stored permission is granted to a user that is stored if the session tracks it. -/
theorem grantToUser_carries (user : PrincipalHandle) (permission : Permission) :
    Carries I E (fun st => user.Known st ∧ st.HasPermission permission.id)
      (grantToUser user permission) fun _ _ => True := by
  refine (Carries.attempt _).bind fun _ => ?_
  split
  · exact .throw (h.failure _ rfl)
  · rename_i kind hkind
    split
    · rename_i id hid htr
      refine (Carries.ask _).bind fun held => ?_
      split
      · exact .pure fun _ _ => trivial
      · refine Carries.bind (.update h.fault fun s hs hst => ?_) fun _ => .pure fun _ _ => trivial
        exact h.closed.grantUser _ hs (hkind ▸ hst.1 htr id hid) hst.2
    · exact .pure fun _ _ => trivial

end Permissions

namespace Groups

theorem create_keeps (name : String) : Keeps I E (create name) :=
  (Keeps.attempt _).bind fun _ => Keeps.change h.fault fun _ _ _ hs => h.closed.addOidcGroup hs

/-- A directory group is mapped to a team that may be mapped. -/
theorem mapLdap_carries (team : TeamHandle) (dn : String) :
    Carries I E (fun st => ∀ id ∈ team.id, M st id) (mapLdap team dn) fun _ _ => True := by
  refine (Carries.attempt _).bind fun _ => (Carries.require fun _ => h.fault _).bind fun _ => ?_
  refine Carries.bind (.finds (mappedTeam_keeps h.failure .ldap team)
    fun _ => mappedTeam_finds .ldap team) fun id => (Carries.ask _).bind fun _ => ?_
  refine Carries.bind (.update h.fault fun s hs hst => ?_) fun _ => .pure fun _ _ => trivial
  exact h.closed.mapLdap id dn hs (hst.1 id hst.2)

theorem unmapLdap_keeps (team : TeamHandle) (dn : String) : Keeps I E (unmapLdap team dn) := by
  refine (Keeps.attempt _).bind fun _ => (Keeps.require fun _ => h.fault _).bind fun _ => ?_
  split
  · exact Keeps.pure _
  · exact (Keeps.ask _).bind fun _ =>
      (Keeps.update h.fault fun _ => h.closed.unmapLdap _ _).bind fun _ => Keeps.pure _

/-- A stored provider group is mapped to a team that may be mapped. -/
theorem mapOidc_carries (team : TeamHandle) (group : OidcGroup) :
    Carries I E (fun st => st.HasGroup group.id ∧ ∀ id ∈ team.id, M st id) (mapOidc team group)
      fun _ _ => True := by
  refine (Carries.attempt _).bind fun _ => (Carries.require fun _ => h.fault _).bind fun _ => ?_
  refine Carries.bind (.finds (mappedTeam_keeps h.failure .oidc team)
    fun _ => mappedTeam_finds .oidc team) fun id => (Carries.ask _).bind fun _ => ?_
  refine Carries.bind (.update h.fault fun s hs hst => ?_) fun _ => .pure fun _ _ => trivial
  exact h.closed.mapOidc id group.id hs (hst.1.2 id hst.2) hst.1.1

theorem unmapOidc_keeps (team : TeamHandle) (group : OidcGroup) :
    Keeps I E (unmapOidc team group) := by
  refine (Keeps.attempt _).bind fun _ => (Keeps.require fun _ => h.fault _).bind fun _ => ?_
  split
  · exact Keeps.pure _
  · exact (Keeps.ask _).bind fun _ =>
      (Keeps.update h.fault fun _ => h.closed.unmapOidc _ _).bind fun _ => Keeps.pure _

end Groups

namespace Principals

/-- The permissions that are stored stay while a user is added. -/
theorem createUser_carries (permission : Uuid) (username : String) (profile : Profile) :
    Carries I E (fun st => st.HasPermission permission) (createUser username profile)
      fun user st => user.user.handle.Known st ∧ st.HasPermission permission := by
  refine (Carries.attempt _).bind fun _ => ?_
  refine Carries.bind (Q := fun u st => u.handle.Known st ∧ st.HasPermission permission)
    (.change h.fault fun s u s' hs hp he => ⟨h.closed.addUser hs he, ?_⟩) fun u => .pure fun _ => id
  obtain ⟨-, -, rfl⟩ := Store.addUser_ok he
  refine ⟨?_, hp⟩
  rintro - _ ⟨⟩
  exact ⟨u, by simp, rfl, rfl⟩

theorem createUser_keeps (username : String) (profile : Profile) :
    Keeps I E (createUser username profile) :=
  (Keeps.attempt _).bind fun _ =>
    (Keeps.change h.fault fun _ _ _ hs => h.closed.addUser hs).bind fun _ => Keeps.pure _

/-- The first teams of a new API key have to be stored. -/
theorem createApiKey_carries (key : String) (teams : List Team) :
    Carries I E (fun st => ∀ t ∈ teams, st.HasTeam t.id) (createApiKey key teams)
      fun _ _ => True := by
  refine (Carries.attempt _).bind fun _ => (Carries.require fun _ => h.fault _).bind fun _ => ?_
  refine Carries.bind (Q := fun _ _ => True) (.change h.fault fun s k s' hs ht he => ?_)
    fun _ => .pure fun _ _ => trivial
  refine ⟨h.closed.addApiKey hs (fun id hid => ?_) he, trivial⟩
  obtain ⟨t, hm, rfl⟩ := List.mem_map.mp hid
  exact ht t hm

theorem regenerateApiKey_keeps (p : PrincipalHandle) (key : String) :
    Keeps I E (regenerateApiKey p key) := by
  refine (Keeps.attempt _).bind fun _ => (lock_keeps h.failure p).bind fun record => ?_
  cases record with
  | user _ => exact Keeps.throw (h.failure _ rfl)
  | apiKey record =>
    exact (Keeps.change h.fault fun _ _ _ hs => h.closed.replaceApiKey hs).bind fun _ =>
      Keeps.pure _

theorem addToTeam_keeps (p : PrincipalHandle) (team : TeamHandle) :
    Keeps I E (addToTeam p team) := by
  refine (Keeps.attempt _).bind fun _ => ?_
  have locked := Carries.finds (I := I) (P := fun _ => True) (lock_keeps h.failure p)
    fun _ => lock_finds p
  refine Carries.keeps (Q := fun _ _ => True) (locked.bind fun record => ?_)
  refine Carries.bind (.finds (target_keeps h.failure team) fun _ => target_finds team) fun t => ?_
  split
  · exact .pure fun _ _ => trivial
  · refine Carries.bind (.update h.fault fun s hs hst => ?_) fun _ => .pure fun _ _ => trivial
    obtain ⟨⟨-, hr⟩, ht⟩ := hst
    obtain ⟨id, -, hm⟩ := Option.bind_eq_some_iff.mp ht
    exact h.closed.join _ hs (Store.stored_of_record? hr) (Store.hasTeam_of_teamById? hm)

theorem removeFromTeam_keeps (p : PrincipalHandle) (team : TeamHandle) :
    Keeps I E (removeFromTeam p team) := by
  refine (Keeps.attempt _).bind fun _ => (lock_keeps h.failure p).bind fun record => ?_
  split
  · exact Keeps.pure _
  · split
    · exact Keeps.pure _
    · exact (Keeps.update h.fault fun _ => h.closed.leave _).bind fun _ => Keeps.pure _

end Principals

end Changing

end TeamAccess
