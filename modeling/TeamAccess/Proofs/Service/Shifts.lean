import TeamAccess.Proofs.Authorization.Shift
import TeamAccess.Proofs.Service.Interruption

/-! # What the operations shift

For each operation of the registry and the services that changes rows: what it brings to a handle
and takes from one at most, if it answers.
-/

namespace TeamAccess

open TeamAccess.Action

variable {α β : Type} {s : Store} {gain loss : PrincipalHandle → String → Prop}

namespace Action

/-- From the rows `s`, an action that answers shifts no more than this. -/
abbrev Shifting (gain loss : PrincipalHandle → String → Prop) (s : Store) (act : Action α) : Prop :=
  Leads (· = s) act fun _ st => Store.Shifts gain loss s st

namespace Shifting

theorem pure (a : α) : Shifting gain loss s (pure a) := by
  refine Carries.pure fun st hst => ?_
  subst hst
  exact .refl st

theorem throw (f : Failure) : Shifting gain loss s (throw f : Action α) := Carries.throw trivial

theorem bind_pure {x : Action α} (h : Shifting gain loss s x) (g : α → β) :
    Shifting gain loss s (do return g (← x)) := Carries.bind h fun _ => .pure fun _ => id

theorem attempt (call : StoreCall) {x : Action α} (h : Shifting gain loss s x) :
    Shifting gain loss s (do attempt call; x) := (Carries.attempt call).bind fun _ => h

theorem require (tables : List Table) {x : Action α} (h : Shifting gain loss s x) :
    Shifting gain loss s (do require tables; x) :=
  (Carries.require fun _ => trivial).bind fun _ => h

theorem change {tables : List Table} {f : Store → Except StoreFault (α × Store)}
    (h : ∀ a s', f s = .ok (a, s') → Store.Shifts gain loss s s') :
    Shifting gain loss s (change tables f) := by
  refine Leads.change fun st a s' hst he => ?_
  subst hst
  exact h a s' he

theorem update {tables : List Table} {f : Store → Store}
    (h : Store.Shifts gain loss s (f s)) : Shifting gain loss s (update tables f) := by
  refine Leads.update fun st hst => ?_
  subst hst
  exact h

theorem ask {f : Store → α} {g : α → Action β} (h : Shifting gain loss s (g (f s))) :
    Shifting gain loss s (do g (← ask f)) := by
  rintro σ ⟨hw, rfl⟩
  exact h σ ⟨hw, rfl⟩

end Shifting

end Action

namespace Permissions

theorem create_shifts (name : String) (description : Option String) :
    Shifting gain loss s (create name description) :=
  .attempt _ (.change fun _ _ => .addPermission)

section

variable {permission : Permission} (hd : s.Distinct) (hp : permission ∈ s.permissions)

include hd hp

/-- Granting a permission to a team brings it to the members of the team. -/
theorem grantToTeam_shifts (team : TeamHandle)
    (hg : ∀ p, s.BelongsTo team p → gain p permission.name) :
    Shifting gain loss s (grantToTeam team permission) := by
  refine .attempt _ ?_
  split
  · rename_i id hid _
    refine Shifting.ask ?_
    split
    · exact Shifting.pure _
    · refine Shifting.bind_pure (.update ?_) _
      rw [Store.grantTeam_rows]
      refine .teamGrants (fun x hx hn p principal hs hm q hq he => ?_) fun x hx hn => ?_
      · obtain rfl := (Store.mem_grantTeam.mp hx).resolve_left hn
        rw [List.inj_on_of_nodup_map hd.permissionIds hq hp he]
        exact hg p ⟨id, principal, hid, hs, hm⟩
      · exact absurd (Store.mem_grantTeam.mpr (.inl hx)) hn
  · exact Shifting.pure _

/-- Taking a permission from a team takes it from the members of the team. -/
theorem revokeFromTeam_shifts (team : TeamHandle)
    (hl : ∀ p, s.BelongsTo team p → loss p permission.name) :
    Shifting gain loss s (revokeFromTeam team permission) := by
  refine .attempt _ ?_
  split
  · rename_i id hid _
    refine Shifting.ask ?_
    split
    · exact Shifting.pure _
    · refine Shifting.bind_pure (.update ?_) _
      refine .teamGrants (fun x hx hn => ?_) fun x hx hn p principal hs hm q hq he => ?_
      · exact absurd (List.mem_filter.mp hx).1 hn
      · obtain rfl : x = ⟨id, permission.id⟩ := by
          by_contra hne
          exact hn (List.mem_filter.mpr ⟨hx, decide_eq_true hne⟩)
        rw [List.inj_on_of_nodup_map hd.permissionIds hq hp he]
        exact hl p ⟨id, principal, hid, hs, hm⟩
  · exact Shifting.pure _

/-- Granting a permission to a user brings it to that user. -/
theorem grantToUser_shifts (user : PrincipalHandle)
    (hg : ∀ p, s.Denotes user p → gain p permission.name) :
    Shifting gain loss s (grantToUser user permission) := by
  refine .attempt _ ?_
  split
  · exact Shifting.throw _
  · rename_i kind hk
    split
    · rename_i id hid _
      refine Shifting.ask ?_
      split
      · exact Shifting.pure _
      · refine Shifting.bind_pure (.update ?_) _
        rw [Store.grantUser_rows]
        refine .userGrants (fun x hx hn p hp' hs q hq he => ?_) fun x hx => ?_
        · obtain rfl := (Store.mem_grantUser.mp hx).resolve_left hn
          rw [List.inj_on_of_nodup_map hd.permissionIds hq hp he]
          exact hg p ⟨hp'.trans hk.symm, id, hid, hs⟩
        · exact Store.mem_grantUser.mpr (.inl hx)
    · exact Shifting.pure _

end

end Permissions

namespace Teams

theorem create_shifts (name : String) : Shifting gain loss s (create name) :=
  .attempt _ (Shifting.bind_pure (.change fun _ _ => .addTeam) _)

theorem rename_shifts (id : Uuid) (name : String) : Shifting gain loss s (rename id name) := by
  refine .attempt _ ?_
  refine (Leads.read fun _ => Reads.query _ _).bind fun team => ?_
  refine (Leads.read fun _ => loaded_reads team).bind fun record => ?_
  cases record with
  | none => exact Shifting.pure _
  | some record => exact Shifting.bind_pure (.change fun _ _ => .renameTeam) _

/-- Storing the teams of some handles, where no membership waits for one of them. -/
theorem store_leads {handles : List TeamHandle} {team : TeamHandle} (hm : team ∈ handles) :
    Leads (fun st => (∀ handle ∈ handles, ∀ id ∈ handle.id, st.Settled id) ∧
        Store.Shifts gain loss s st) (store team)
      fun _ st => (∀ handle ∈ handles, ∀ id ∈ handle.id, st.Settled id) ∧
        Store.Shifts gain loss s st := by
  have grown {st st' : Store} {t t' : Team} (he : st.insertTeam t = .ok (t', st'))
      (hs : ∀ handle ∈ handles, ∀ id ∈ handle.id, st.Settled id) :
      ∀ handle ∈ handles, ∀ id ∈ handle.id, st'.Settled id := by
    obtain ⟨-, -, -, rfl⟩ := Store.insertTeam_ok he
    exact fun handle hmem id hid => (hs handle hmem id hid).insert t
  unfold store
  split
  · exact .pure fun _ => id
  · rename_i id hid _
    exact Leads.change fun st t st' hs he =>
      ⟨grown he hs.1, hs.2.trans (.insertTeam he (hs.1 team hm id hid))⟩
  · exact Leads.change fun st t st' hs he => ⟨grown he hs.1, hs.2.trans (.addTeam he)⟩

end Teams

namespace Groups

theorem create_shifts (name : String) : Shifting gain loss s (create name) :=
  .attempt _ (.change fun _ _ => .addOidcGroup)

theorem mappedTeam_leads {P : Store → Prop} (source : GroupSource) (team : TeamHandle) :
    Leads P (mappedTeam source team) fun _ => P := by
  unfold mappedTeam
  split
  · exact .pure fun _ => id
  · exact .throw trivial

theorem mapLdap_shifts (team : TeamHandle) (dn : String) :
    Shifting gain loss s (mapLdap team dn) :=
  .attempt _ (Shifting.require _ ((mappedTeam_leads _ _).bind fun id =>
    Shifting.ask (Shifting.bind_pure (.update (.mapLdap s id dn)) _)))

theorem unmapLdap_shifts (team : TeamHandle) (dn : String) :
    Shifting gain loss s (unmapLdap team dn) := by
  refine .attempt _ (Shifting.require _ ?_)
  split
  · exact Shifting.pure _
  · exact Shifting.ask (Shifting.bind_pure (.update (.unmapLdap s _ dn)) _)

theorem mapOidc_shifts (team : TeamHandle) (group : OidcGroup) :
    Shifting gain loss s (mapOidc team group) :=
  .attempt _ (Shifting.require _ ((mappedTeam_leads _ _).bind fun id =>
    Shifting.ask (Shifting.bind_pure (.update (.mapOidc s id group.id)) _)))

theorem unmapOidc_shifts (team : TeamHandle) (group : OidcGroup) :
    Shifting gain loss s (unmapOidc team group) := by
  refine .attempt _ (Shifting.require _ ?_)
  split
  · exact Shifting.pure _
  · exact Shifting.ask (Shifting.bind_pure (.update (.unmapOidc s _ group.id)) _)

end Groups

namespace Principals

theorem createUser_shifts (username : String) (profile : Profile) :
    Shifting gain loss s (createUser username profile) :=
  .attempt _ (Shifting.bind_pure (.change fun _ _ => .addUser) _)

/-- A new API key brings something to itself. -/
theorem createApiKey_leads (key : String) (teams : List Team) :
    Leads (Store.Shifts (fun _ _ => False) loss s) (createApiKey key teams) fun r =>
      Store.Shifts (fun p _ => p.kind = .apiKey ∧ p.id = some r.apiKey.id) loss s := by
  refine (Carries.attempt _).bind fun _ => (Carries.require fun _ => trivial).bind fun _ => ?_
  refine Carries.bind (Q := fun (k : ApiKey) =>
    Store.Shifts (fun p _ => p.kind = .apiKey ∧ p.id = some k.id) loss s)
    (Leads.change fun st k st' hs he => ?_) fun _ => .pure fun _ => id
  exact (hs.mono (fun _ _ => False.elim) fun _ _ => id).trans
    (.addApiKey he fun p hk hi _ => ⟨hk, hi⟩)

theorem regenerateApiKey_shifts (p : PrincipalHandle) (key : String) :
    Shifting gain loss s (regenerateApiKey p key) := by
  refine .attempt _ (Leads.find (fun _ => lock_finds p) fun record _ => ?_)
  cases record with
  | user _ => exact Shifting.throw _
  | apiKey record => exact Shifting.bind_pure (.change fun _ _ => .replaceApiKey) _

/-- Adding a member brings something to that member. -/
theorem addToTeam_shifts (p : PrincipalHandle) (team : TeamHandle)
    (hg : ∀ q, s.Denotes p q → ∀ name, gain q name) :
    Shifting gain loss s (addToTeam p team) := by
  refine .attempt _ (Leads.find (fun _ => lock_finds p) fun r hr => ?_)
  refine Leads.find (fun _ => target_finds team) fun t _ => ?_
  have hk := Store.kind_of_record? hr
  have hid := Store.id_of_record? hr
  split
  · exact Shifting.pure _
  · refine Shifting.bind_pure (.update ?_) _
    rw [Store.join_rows]
    refine .memberships (fun e he hn q hq hs => ?_) fun e he hn => ?_
    · obtain rfl := (Store.mem_join.mp he).resolve_left hn
      exact hg q ⟨hq.trans hk.symm, r.id, hid, hs⟩
    · exact absurd (Store.mem_join.mpr (.inl he)) hn

/-- Removing a member takes something from that member. -/
theorem removeFromTeam_shifts (p : PrincipalHandle) (team : TeamHandle)
    (hl : ∀ q, s.Denotes p q → ∀ name, loss q name) :
    Shifting gain loss s (removeFromTeam p team) := by
  refine .attempt _ (Leads.find (fun _ => lock_finds p) fun r hr => ?_)
  have hk := Store.kind_of_record? hr
  have hid := Store.id_of_record? hr
  split
  · exact Shifting.pure _
  · rename_i team _
    split
    · exact Shifting.pure _
    · refine Shifting.bind_pure (.update ?_) _
      refine .memberships (fun e he hn => ?_) fun e he hn q hq hs => ?_
      · exact absurd (List.mem_filter.mp he).1 hn
      · obtain rfl : e = ⟨r.kind, r.id, team⟩ := by
          by_contra hne
          exact hn (List.mem_filter.mpr ⟨he, decide_eq_true hne⟩)
        exact hl q ⟨hq.trans hk.symm, r.id, hid, hs⟩

end Principals

namespace MembershipService

theorem add_shifts (p : PrincipalHandle) (team : TeamHandle)
    (hg : ∀ q, s.Denotes p q → ∀ name, gain q name) :
    Shifting gain loss s (add p team) := by
  refine .attempt _ (Carries.bind (Leads.guarded ?_) fun _ => (Carries.record _).bind fun _ =>
    .pure fun _ => id)
  exact (Principals.addToTeam_shifts p team hg).bind fun _ => Carries.commit.bind fun _ =>
    .pure fun _ => id

theorem remove_shifts (p : PrincipalHandle) (team : TeamHandle)
    (hl : ∀ q, s.Denotes p q → ∀ name, loss q name) :
    Shifting gain loss s (remove p team) := by
  refine .attempt _ (Carries.bind (Leads.guarded ?_) fun _ => (Carries.record _).bind fun _ =>
    .pure fun _ => id)
  exact (Principals.removeFromTeam_shifts p team hl).bind fun _ => Carries.commit.bind fun _ =>
    .pure fun _ => id

end MembershipService

namespace Synchronization

theorem sourceOf_finds (kind : PrincipalKind) :
    Finds s (sourceOf kind) (kind.userKind?.bind (·.source?)) := by
  unfold sourceOf
  cases kind.userKind?.bind (·.source?) with
  | none => exact ⟨_, .throw _⟩
  | some source => exact .pure source

/-- Only a stored user that a source knows is synchronized, and only with groups. -/
theorem synchronize_leads (p : PrincipalHandle) (assertion : Assertion) :
    Leads (· = s) (synchronize p assertion) fun _ _ => ∃ groups u source,
      assertion = .groups groups ∧ u ∈ s.users ∧ u.kind.source? = some source ∧
        s.record? p = some (.user (s.userRecord u)) := by
  cases assertion with
  | loneText => exact fun _ hs => ⟨hs.1, trivial⟩
  | other value =>
    refine Leads.find (fun _ => .pure ()) fun _ _ => ?_
    refine Leads.find (fun _ => sourceOf_finds p.kind) fun source _ => ?_
    exact fun _ hs => ⟨hs.1, trivial⟩
  | groups groups =>
    refine Leads.find (fun _ => .pure ()) fun _ _ => ?_
    refine Leads.find (fun _ => sourceOf_finds p.kind) fun source hs => ?_
    refine Leads.find (fun _ => .pure groups) fun _ _ => (Carries.record _).bind fun _ => ?_
    refine Carries.bind (Leads.guarded ?_) fun _ => (Carries.record _).bind fun _ =>
      .pure fun _ => id
    refine Leads.find (fun _ => Principals.reload_finds p) fun r hr => ?_
    obtain ⟨k, hk, hs⟩ := Option.bind_eq_some_iff.mp hs
    obtain ⟨u, -, hf, rfl⟩ := Store.record?_user (PrincipalKind.eq_of_userKind? hk) hr
    obtain rfl := Store.kind_of_userById? hf
    exact (Carries.of_yields (keeps_true _)).imp fun _ _ _ =>
      ⟨groups, u, source, rfl, List.mem_of_find?_eq_some hf, hs, hr⟩

/-- Synchronizing shifts what the synchronized user holds. -/
theorem synchronized_shifts {u : User} (source : GroupSource) (asserted : List String)
    (hu : ∀ q : PrincipalHandle, q.kind = .user u.kind → s.Stands q u.id →
      ∀ name, gain q name ∧ loss q name) :
    Store.Shifts gain loss s (s.synchronized u source asserted) := by
  refine .memberships (fun e he hn q hq hs name => ?_) fun e he hn q hq hs name => ?_
  · rcases Store.mem_joined.mp he with he | he
    · exact absurd (List.mem_filter.mp he).1 hn
    · obtain ⟨t, -, rfl⟩ := List.mem_map.mp he
      exact (hu q hq hs name).1
  · have hm : e ∈ (s.staleTeams u source asserted).map u.edge := by
      by_contra hk
      exact hn (Store.mem_joined.mpr (.inl (List.mem_filter.mpr ⟨he, decide_eq_true hk⟩)))
    obtain ⟨t, -, rfl⟩ := List.mem_map.mp hm
    exact (hu q hq hs name).2

theorem synchronize_shifts {p : PrincipalHandle} {assertion : Assertion} {outage : Option Outage}
    {r : PrincipalRecord} {σ : Session} (hc : s.missing = []) (hd : s.Distinct)
    (hp : ∀ q, s.Denotes p q → ∀ name, gain q name ∧ loss q name)
    (h : synchronize p assertion (Session.start s outage) = .ok r σ) :
    Store.Shifts gain loss s σ.current := by
  obtain ⟨groups, u, source, rfl, hu, hs, hr⟩ :=
    (synchronize_leads (s := s) p assertion).of_ok rfl h
  have keeps : s.Keeps u := ⟨hc, hd, hu⟩
  have runs := synchronize_runs keeps hr hs groups (Session.start s outage) ⟨rfl, rfl⟩
  rw [h] at runs
  obtain ⟨-, -, hσ⟩ := runs
  have hk := Store.kind_of_record? hr
  have hid := Store.id_of_record? hr
  rw [hσ]
  exact synchronized_shifts source _ fun q hq hst => hp q ⟨hq.trans hk.symm, u.id, hid, hst⟩

end Synchronization

namespace Bootstrap

/-- The permission to administer the service is stored, and nothing more has shifted. -/
structure Ready (gain loss : PrincipalHandle → String → Prop) (s : Store) (permission : Permission)
    (st : Store) : Prop where
  distinct : st.Distinct
  shifts : Store.Shifts gain loss s st
  stored : permission ∈ st.permissions
  name : permission.name = accessManagement

theorem ensurePermission_leads (hd : s.Distinct) :
    Leads (· = s) ensurePermission (Ready gain loss s) := by
  refine Leads.find (fun _ => .reads (Permissions.find?_reads accessManagement)) fun found hf => ?_
  obtain rfl := Option.some.inj hf
  cases hp : s.permission? accessManagement with
  | some permission =>
    obtain ⟨hm, hn⟩ := Store.stored_of_permission? hp
    refine .pure fun st hst => ?_
    subst hst
    exact ⟨hd, .refl _, hm, hn⟩
  | none =>
    refine Carries.bind (Q := Ready gain loss s) ?_ fun _ => (Carries.record _).bind fun _ =>
      .pure fun _ => id
    refine (Carries.attempt _).bind fun _ => Leads.change fun st q st' hst he => ?_
    subst hst
    refine ⟨hd.addPermission he, .addPermission he, ?_, ?_⟩
    all_goals obtain ⟨-, rfl, rfl⟩ := Store.addPermission_ok he
    · simp
    · rfl

/-- The named managed user is stored as well. -/
structure Appointed (gain loss : PrincipalHandle → String → Prop) (s : Store)
    (permission : Permission) (username : String) (user : User) (st : Store) : Prop
    extends Ready gain loss s permission st where
  present : user ∈ st.users
  managed : user.kind = .managed
  called : user.username = username

theorem ensureAdmin_leads (permission : Permission) (username : String) :
    Leads (Ready gain loss s permission) (ensureAdmin username) fun record =>
      Appointed gain loss s permission username record.user := by
  refine Leads.of_eq fun st ready => ?_
  refine Leads.find (fun _ => .reads ⟨_, Principals.findUser?_traces .managed username⟩)
    fun found hf => ?_
  obtain rfl := Option.some.inj hf
  cases hu : st.user? .managed username with
  | some user =>
    have hf := List.find?_some hu
    obtain ⟨hk, hn⟩ := of_decide_eq_true hf
    refine .pure fun st' hst => ?_
    subst hst
    exact ⟨ready, List.mem_of_find?_eq_some hu, hk, hn⟩
  | none =>
    have created : Leads (· = st) (Principals.createUser username blankProfile) fun record =>
        Appointed gain loss s permission username record.user := by
      refine (Carries.attempt _).bind fun _ => Carries.bind
        (Q := fun user st' => Appointed gain loss s permission username user st')
        (Leads.change fun st₁ user st' hst he => ?_) fun _ => .pure fun _ => id
      subst hst
      have hd := ready.distinct.addUser he
      have hs := ready.shifts.trans (Store.Shifts.addUser he)
      obtain ⟨-, rfl, rfl⟩ := Store.addUser_ok he
      exact ⟨⟨hd, hs, ready.stored, ready.name⟩, by simp, rfl, rfl⟩
    exact created.bind fun _ => (Carries.record _).bind fun _ => .pure fun _ => id

/-- The bootstrap brings the permission to administer the service to the named user. -/
theorem ensure_shifts (hd : s.Distinct) (admin : Option String)
    (hg : ∀ p : PrincipalHandle, p.kind = .user .managed → admin = some p.name →
      gain p accessManagement) :
    Shifting gain loss s (ensure admin) := by
  have ready : Leads (· = s) ensurePermission (Ready gain loss s) := ensurePermission_leads hd
  refine ready.bind fun permission => ?_
  cases ha : admin.filter (· != "") with
  | none => exact Carries.commit.imp fun _ _ (hr : Ready gain loss s permission _) => hr.shifts
  | some username =>
    refine (ensureAdmin_leads permission username).bind fun record => ?_
    refine Carries.bind (Q := fun _ st => Store.Shifts gain loss s st) (.discard ?_)
      fun _ => Carries.commit
    refine Leads.of_eq fun st appointed => ?_
    refine (Permissions.grantToUser_shifts appointed.distinct appointed.stored _ ?_).imp
      fun _ _ => appointed.shifts.trans
    rintro p ⟨hp, id, hid, hs⟩
    have managed : p.kind = .user .managed :=
      hp.trans (congrArg PrincipalKind.user appointed.managed)
    rw [appointed.name]
    refine hg p managed ?_
    -- whom the handle stands for is the user that has been found or created
    obtain rfl : record.user.id = id := by simpa [User.handle] using hid
    unfold Store.Stands at hs
    rw [managed] at hs
    obtain ⟨u, hm, -, called, hi⟩ := hs
    obtain rfl := List.inj_on_of_nodup_map appointed.distinct.userIds hm appointed.present hi
    rw [← called, appointed.called]
    exact (Option.filter_eq_some_iff.mp ha).1

end Bootstrap

end TeamAccess
