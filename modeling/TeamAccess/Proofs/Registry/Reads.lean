import TeamAccess.Proofs.Reading
import TeamAccess.Registry.Groups
import TeamAccess.Registry.Permissions
import TeamAccess.Registry.Principals

/-! # What the registry reads

Each lookup makes its accesses in a fixed order and answers what the rows of the store hold. For the
lookups that decisions rest on the accesses are listed, so that every point at which a decision can
be cut off is known.
-/

namespace TeamAccess

open TeamAccess.Action

variable {st : Store}

theorem PrincipalKind.eq_of_userKind? {kind : PrincipalKind} {k : UserKind}
    (h : kind.userKind? = some k) : kind = .user k := by
  cases kind with
  | user k' => exact congrArg PrincipalKind.user (Option.some.inj h)
  | apiKey => cases h

@[simp] theorem PrincipalRecord.id_handle (r : PrincipalRecord) : r.handle.id = some r.id := by
  cases r <;> rfl

namespace Store

/-- The record of the principal of a kind with an identifier. -/
def recordById? (s : Store) : PrincipalKind → Uuid → Option PrincipalRecord
  | .apiKey, id => (s.apiKeyById? id).map (.apiKey ∘ s.keyRecord)
  | .user k, id => (s.userById? k id).map (.user ∘ s.userRecord)

/-- The record of the principal that a handle names by its identifier. -/
def record? (s : Store) (p : PrincipalHandle) : Option PrincipalRecord :=
  p.id.bind (s.recordById? p.kind)

/-- The record of the principal that a caller is called: a user by the username, a key by its text.
-/
def resolve? (s : Store) : PrincipalKind → String → Option PrincipalRecord
  | .apiKey, key => (s.apiKey? key).map (.apiKey ∘ s.keyRecord)
  | .user k, name => (s.user? k name).map (.user ∘ s.userRecord)

theorem kind_of_user? {k : UserKind} {name : String} {u : User} (h : st.user? k name = some u) :
    u.kind = k := by
  have hp := List.find?_some h
  exact (of_decide_eq_true hp).1

theorem kind_of_userById? {k : UserKind} {id : Uuid} {u : User}
    (h : st.userById? k id = some u) : u.kind = k := by
  have hp := List.find?_some h
  exact (of_decide_eq_true hp).1

theorem record?_user {p : PrincipalHandle} {k : UserKind} {r : PrincipalRecord}
    (hp : p.kind = .user k) (h : st.record? p = some r) :
    ∃ u, p.id = some u.id ∧ st.userById? k u.id = some u ∧ r = .user (st.userRecord u) := by
  obtain ⟨id, hid, hi⟩ := Option.bind_eq_some_iff.mp h
  rw [hp] at hi
  obtain ⟨u, hu, rfl⟩ := Option.map_eq_some_iff.mp hi
  have hf := List.find?_some hu
  obtain ⟨-, rfl⟩ := of_decide_eq_true hf
  exact ⟨u, hid, hu, rfl⟩

theorem kind_of_record? {p : PrincipalHandle} {r : PrincipalRecord} (h : st.record? p = some r) :
    p.kind = r.kind := by
  obtain ⟨id, -, hi⟩ := Option.bind_eq_some_iff.mp h
  cases hp : p.kind with
  | user k =>
    rw [hp] at hi
    obtain ⟨u, hu, rfl⟩ := Option.map_eq_some_iff.mp hi
    exact congrArg PrincipalKind.user (kind_of_userById? hu).symm
  | apiKey =>
    rw [hp] at hi
    obtain ⟨k, -, rfl⟩ := Option.map_eq_some_iff.mp hi
    rfl

theorem record?_apiKey {p : PrincipalHandle} {r : PrincipalRecord} (hp : p.kind = .apiKey)
    (h : st.record? p = some r) :
    ∃ k, p.id = some k.id ∧ st.apiKeyById? k.id = some k ∧ r = .apiKey (st.keyRecord k) := by
  obtain ⟨id, hid, hi⟩ := Option.bind_eq_some_iff.mp h
  rw [hp] at hi
  obtain ⟨k, hk, rfl⟩ := Option.map_eq_some_iff.mp hi
  have hf := List.find?_some hk
  obtain rfl := of_decide_eq_true hf
  exact ⟨k, hid, hk, rfl⟩

theorem id_of_record? {p : PrincipalHandle} {r : PrincipalRecord} (h : st.record? p = some r) :
    p.id = some r.id := by
  cases hp : p.kind with
  | user k =>
    obtain ⟨u, hid, -, rfl⟩ := record?_user hp h
    exact hid
  | apiKey =>
    obtain ⟨k, hid, -, rfl⟩ := record?_apiKey hp h
    exact hid

theorem teams_of_record? {p : PrincipalHandle} {r : PrincipalRecord} (h : st.record? p = some r) :
    r.teams = st.teamsOf r.kind r.id := by
  cases hp : p.kind with
  | user k =>
    obtain ⟨u, -, -, rfl⟩ := record?_user hp h
    rfl
  | apiKey =>
    obtain ⟨k, -, -, rfl⟩ := record?_apiKey hp h
    rfl

theorem teamById?_of_mem {t : Team} (h : t ∈ st.teams) :
    ∃ t', st.teamById? t.id = some t' ∧ t'.id = t.id := by
  have found : (st.teamById? t.id).isSome := List.find?_isSome.mpr ⟨t, h, by simp⟩
  obtain ⟨t', ht⟩ := Option.isSome_iff_exists.mp found
  have hid := List.find?_some ht
  exact ⟨t', ht, of_decide_eq_true hid⟩

/-- What an identifier that is perhaps missing finds is a stored team. -/
theorem mem_teams_of_bind {id : Option Uuid} {t : Team} (h : id.bind st.teamById? = some t) :
    t ∈ st.teams := by
  obtain ⟨id, -, hf⟩ := Option.bind_eq_some_iff.mp h
  exact List.mem_of_find?_eq_some hf

theorem stored_of_permission? {name : String} {q : Permission} (h : st.permission? name = some q) :
    q ∈ st.permissions ∧ q.name = name := by
  have hn := List.find?_some h
  exact ⟨List.mem_of_find?_eq_some h, of_decide_eq_true hn⟩

end Store

namespace Action

/-- The accesses that read the permissions of teams. -/
def teamGrantProbes (teams : List Team) : List Probe :=
  if teams.isEmpty then [] else [.read [.teamGrants, .permissions]]

/-- The accesses that read the edges of a user. -/
def userProbes (st : Store) (u : User) : List Probe :=
  .read [.memberships (.user u.kind), .teams] ::
    (teamGrantProbes (st.teamsOf (.user u.kind) u.id)
      ++ [.read [.userGrants u.kind, .permissions]])

/-- The accesses that read the edges of an API key. -/
def keyProbes (st : Store) (k : ApiKey) : List Probe :=
  .read [.memberships .apiKey, .teams] :: teamGrantProbes (st.teamsOf .apiKey k.id)

/-- The accesses that read the principal of a kind with an identifier. -/
def recordProbes (st : Store) : PrincipalKind → Uuid → List Probe
  | .apiKey, id => .read [.apiKeys] :: (st.apiKeyById? id).elim [] (keyProbes st)
  | .user k, id => .read [.users k] :: (st.userById? k id).elim [] (userProbes st)

/-- The accesses that read the principal of a handle again. -/
def fetchProbes (st : Store) (p : PrincipalHandle) : List Probe :=
  p.id.elim [] (recordProbes st p.kind)

/-- The accesses that read the team of an identifier. -/
def teamProbes (st : Store) (id : Uuid) : List Probe :=
  .call .getTeam :: .read [.teams] :: teamGrantProbes (st.teamById? id).toList

/-- The accesses that read the stored team of a handle. -/
def targetProbes (st : Store) (t : TeamHandle) : List Probe := t.id.elim [] (teamProbes st)

/-- The accesses that tell whether a principal of a kind holds a permission directly. -/
def heldProbes : PrincipalKind → List Probe
  | .apiKey => [.call .userHas]
  | .user k => [.call .userHas, .read [.userGrants k, .permissions]]

/-- The accesses that read what a principal of a kind holds directly. -/
def directProbes : PrincipalKind → List Probe
  | .apiKey => [.call .directFor]
  | .user k => [.call .directFor, .read [.permissions, .userGrants k]]

theorem requireTeamGrants_traces (teams : List Team) :
    Traces st (requireTeamGrants teams) (teamGrantProbes teams) (.ok ()) := by
  unfold requireTeamGrants teamGrantProbes
  split
  · exact .pure ()
  · exact .require _

theorem loadTeams_traces (teams : List Team) :
    Traces st (loadTeams teams) (teamGrantProbes teams) (.ok (teams.map st.teamRecord)) :=
  .cast (.bind (requireTeamGrants_traces teams) (.ask _)) (List.append_nil _) rfl

theorem loadTeams_reads (teams : List Team) :
    Reads st (loadTeams teams) (.ok (teams.map st.teamRecord)) := ⟨_, loadTeams_traces teams⟩

theorem loadUsers_reads (kind : UserKind) (users : List User) :
    Reads st (loadUsers kind users) (.ok (users.map st.userRecord)) := by
  unfold loadUsers
  split
  · rename_i h
    rw [List.isEmpty_iff.mp h]
    exact .pure []
  · exact (Reads.require _).bind ((Reads.ask _).bind
      (.bind ⟨_, requireTeamGrants_traces _⟩ ((Reads.require _).bind (.ask _))))

theorem loadUsers_traces {kind : UserKind} {user : Option User} (h : ∀ u ∈ user, u.kind = kind) :
    Traces st (loadUsers kind user.toList) (user.elim [] (userProbes st))
      (.ok (user.map st.userRecord).toList) := by
  cases user with
  | none => exact .pure []
  | some u =>
    obtain rfl := h u rfl
    unfold loadUsers
    rw [if_neg (by simp)]
    exact .cast (.bind (.require _) (.bind (.ask _) (.bind (requireTeamGrants_traces _)
      (.bind (.require _) (.ask _))))) (by simp [userProbes]) rfl

theorem loadKeys_reads (keys : List ApiKey) :
    Reads st (loadKeys keys) (.ok (keys.map st.keyRecord)) := by
  unfold loadKeys
  split
  · rename_i h
    rw [List.isEmpty_iff.mp h]
    exact .pure []
  · exact (Reads.require _).bind ((Reads.ask _).bind
      (.bind ⟨_, requireTeamGrants_traces _⟩ (.ask _)))

theorem loadKeys_traces (key : Option ApiKey) :
    Traces st (loadKeys key.toList) (key.elim [] (keyProbes st))
      (.ok (key.map st.keyRecord).toList) := by
  cases key with
  | none => exact .pure []
  | some k =>
    unfold loadKeys
    rw [if_neg (by simp)]
    exact .cast (.bind (.require _) (.bind (.ask _) (.bind (requireTeamGrants_traces _)
      (.ask _)))) (by simp [keyProbes]) rfl

end Action

namespace Teams

theorem loaded_traces (team : Option Team) :
    Traces st (loaded team) (teamGrantProbes team.toList) (.ok (team.map st.teamRecord)) :=
  .cast (.bind (loadTeams_traces team.toList) (.pure _)) (List.append_nil _)
    (by cases team <;> rfl)

theorem loaded_reads (team : Option Team) :
    Reads st (loaded team) (.ok (team.map st.teamRecord)) := ⟨_, loaded_traces team⟩

theorem get?_traces (id : Uuid) :
    Traces st (get? id) (teamProbes st id) (.ok ((st.teamById? id).map st.teamRecord)) :=
  (Traces.attempt _).bind ((Traces.query _ _).bind (loaded_traces _))

theorem get?_reads (id : Uuid) :
    Reads st (get? id) (.ok ((st.teamById? id).map st.teamRecord)) := ⟨_, get?_traces id⟩

theorem find?_reads (name : String) :
    Reads st (find? name) (.ok ((st.team? name).map st.teamRecord)) :=
  (Reads.attempt _).bind ((Reads.query _ _).bind (loaded_reads _))

theorem list_reads : Reads st list (.ok (st.allTeams.map st.teamRecord)) :=
  (Reads.attempt _).bind ((Reads.query _ _).bind (loadTeams_reads _))

end Teams

namespace Permissions

theorem find?_reads (name : String) : Reads st (find? name) (.ok (st.permission? name)) :=
  (Reads.attempt _).bind (Reads.query _ _)

theorem list_reads : Reads st list (.ok st.allPermissions) :=
  (Reads.attempt _).bind (Reads.query _ _)

theorem directlyHas_traces (k : UserKind) (id : Uuid) (name : String) :
    Traces st (directlyHas (.user k) id name) [.call .userHas, .read [.userGrants k, .permissions]]
      (.ok (st.userHolds k id name)) :=
  (Traces.attempt _).bind (Traces.query _ _)

theorem teamHas_traces (team : Uuid) (name : String) :
    Traces st (teamHas team name) [.call .teamHas, .read [.teamGrants, .permissions]]
      (.ok (st.teamHolds team name)) :=
  (Traces.attempt _).bind (Traces.query _ _)

/-- API keys hold nothing directly. -/
theorem held_traces (kind : PrincipalKind) (id : Uuid) (name : String) :
    Traces st (directlyHas kind id name) (heldProbes kind)
      (.ok (kind.userKind?.any (st.userHolds · id name))) := by
  cases kind with
  | user k => exact directlyHas_traces k id name
  | apiKey => exact (Traces.attempt _).bind (.pure _)

theorem directlyHas_reads (kind : PrincipalKind) (id : Uuid) (name : String) :
    Reads st (directlyHas kind id name) (.ok (kind.userKind?.any (st.userHolds · id name))) :=
  ⟨_, held_traces kind id name⟩

theorem directFor_traces (kind : PrincipalKind) (id : Uuid) :
    Traces st (directFor kind id) (directProbes kind)
      (.ok (kind.userKind?.elim [] (st.directPermissions · id))) := by
  cases kind with
  | user k => exact (Traces.attempt _).bind (Traces.query _ _)
  | apiKey => exact (Traces.attempt _).bind (.pure _)

theorem directFor_reads (kind : PrincipalKind) (id : Uuid) :
    Reads st (directFor kind id) (.ok (kind.userKind?.elim [] (st.directPermissions · id))) :=
  ⟨_, directFor_traces kind id⟩

theorem forTeam_traces (team : Uuid) :
    Traces st (forTeam team) [.call .forTeam, .read [.permissions, .teamGrants]]
      (.ok (st.teamPermissions team)) :=
  (Traces.attempt _).bind (Traces.query _ _)

theorem forTeam_reads (team : Uuid) :
    Reads st (forTeam team) (.ok (st.teamPermissions team)) := ⟨_, forTeam_traces team⟩

end Permissions

namespace Groups

theorem find?_traces (name : String) :
    Traces st (find? name) [.call .findOidcGroup, .read [.oidcGroups]]
      (.ok (st.oidcGroup? name)) :=
  (Traces.attempt _).bind (Traces.query _ _)

theorem find?_reads (name : String) : Reads st (find? name) (.ok (st.oidcGroup? name)) :=
  ⟨_, find?_traces name⟩

theorem list_reads : Reads st list (.ok st.allOidcGroups) :=
  (Reads.attempt _).bind (Reads.query _ _)

theorem mappedTeam_finds (source : GroupSource) (team : TeamHandle) :
    Finds st (mappedTeam source team) team.id := by
  unfold mappedTeam
  cases team.id with
  | some id => exact .pure id
  | none => exact ⟨_, .throw _⟩

theorem teamsForDn_traces (dn : String) :
    Traces st (teamsForDn dn)
      (.call .teamsForDn :: .read [.teams, .ldapMappings] :: teamGrantProbes (st.teamsForDn dn))
      (.ok (st.teamsForDn dn)) :=
  .cast ((Traces.attempt _).bind ((Traces.query _ _).bind
    (.bind (requireTeamGrants_traces _) (.pure _)))) (by simp) rfl

theorem teamsForDn_reads (dn : String) : Reads st (teamsForDn dn) (.ok (st.teamsForDn dn)) :=
  ⟨_, teamsForDn_traces dn⟩

theorem dnsForTeam_traces (team : TeamHandle) :
    Traces st (dnsForTeam team) [.call .dnsForTeam, .read [.ldapMappings]]
      (.ok ((team.id.map st.dnsForTeam).getD [])) :=
  (Traces.attempt _).bind (Traces.query _ _)

theorem dnsForTeam_reads (team : TeamHandle) :
    Reads st (dnsForTeam team) (.ok ((team.id.map st.dnsForTeam).getD [])) :=
  ⟨_, dnsForTeam_traces team⟩

theorem teamsForGroup_traces (group : OidcGroup) :
    Traces st (teamsForGroup group)
      (.call .teamsForOidcGroup :: .read [.teams, .oidcMappings] ::
        teamGrantProbes (st.teamsForOidcGroup group.id))
      (.ok (st.teamsForOidcGroup group.id)) :=
  .cast ((Traces.attempt _).bind ((Traces.query _ _).bind
    (.bind (requireTeamGrants_traces _) (.pure _)))) (by simp) rfl

theorem teamsForGroup_reads (group : OidcGroup) :
    Reads st (teamsForGroup group) (.ok (st.teamsForOidcGroup group.id)) :=
  ⟨_, teamsForGroup_traces group⟩

theorem namesForTeam_traces (team : TeamHandle) :
    Traces st (namesForTeam team) [.call .oidcNamesForTeam, .read [.oidcGroups, .oidcMappings]]
      (.ok ((team.id.map st.oidcNamesForTeam).getD [])) :=
  (Traces.attempt _).bind (Traces.query _ _)

theorem namesForTeam_reads (team : TeamHandle) :
    Reads st (namesForTeam team) (.ok ((team.id.map st.oidcNamesForTeam).getD [])) :=
  ⟨_, namesForTeam_traces team⟩

end Groups

namespace Principals

theorem findUser?_traces (k : UserKind) (name : String) :
    Traces st (findUser? (.user k) name)
      (.call .findUser :: .read [.users k] :: (st.user? k name).elim [] (userProbes st))
      (.ok ((st.user? k name).map st.userRecord)) :=
  .cast (.bind (.attempt _) (.bind (.pure k) (.bind (.query _ _)
    (.bind (loadUsers_traces fun _ => Store.kind_of_user?) (.pure _))))) (by simp) (by simp)

theorem findUser?_apiKey_reads (name : String) :
    Reads st (findUser? .apiKey name) (.error (.notAUserKind .apiKey)) :=
  (Reads.attempt _).bind (.bind_fails (.throw _))

theorem findIn?_reads (name : String) (kinds : List UserKind) :
    Reads st (findIn? name kinds)
      (.ok ((kinds.findSome? fun k => st.user? k name).map st.userRecord)) := by
  induction kinds with
  | nil => exact .pure none
  | cons k kinds ih =>
    refine .bind ⟨_, findUser?_traces k name⟩ ?_
    cases h : st.user? k name with
    | none => simpa [h] using ih
    | some u => simpa [h] using Reads.pure (some (st.userRecord u))

theorem listUsers_reads (k : UserKind) :
    Reads st (listUsers (.user k)) (.ok ((st.allUsers k).map st.userRecord)) :=
  (Reads.attempt _).bind ((Reads.pure k).bind ((Reads.query _ _).bind (loadUsers_reads _ _)))

theorem listUsers_apiKey_reads :
    Reads st (listUsers .apiKey) (.error (.notAUserKind .apiKey)) :=
  (Reads.attempt _).bind (.bind_fails (.throw _))

theorem findApiKey?_traces (key : String) :
    Traces st (findApiKey? key)
      (.call .findApiKey :: .read [.apiKeys] :: (st.apiKey? key).elim [] (keyProbes st))
      (.ok ((st.apiKey? key).map st.keyRecord)) :=
  .cast (.bind (.attempt _) (.bind (.query _ _) (.bind (loadKeys_traces _) (.pure _))))
    (by simp) (by simp)

theorem resolve?_reads (kind : PrincipalKind) (identifier : String) :
    Reads st (resolve? kind identifier) (.ok (st.resolve? kind identifier)) := by
  cases kind with
  | user k =>
    exact .cast (.bind ⟨_, findUser?_traces k identifier⟩ (.pure _)) (by simp [Store.resolve?])
  | apiKey =>
    exact .cast (.bind ⟨_, findApiKey?_traces identifier⟩ (.pure _)) (by simp [Store.resolve?])

theorem byId?_traces (kind : PrincipalKind) (id : Uuid) :
    Traces st (byId? kind id) (recordProbes st kind id) (.ok (st.recordById? kind id)) := by
  cases kind with
  | user k =>
    exact .cast (.bind (.query _ _)
      (.bind (loadUsers_traces fun _ => Store.kind_of_userById?) (.pure _)))
      (by simp [recordProbes]) (by simp [Store.recordById?])
  | apiKey =>
    exact .cast (.bind (.query _ _) (.bind (loadKeys_traces _) (.pure _)))
      (by simp [recordProbes]) (by simp [Store.recordById?])

theorem fetch_traces (p : PrincipalHandle) :
    Traces st (fetch p) (fetchProbes st p)
      ((st.record? p).elim (.error p.notFound) .ok) := by
  unfold fetch
  cases hi : p.id with
  | none => exact .cast (.throw _) (by simp [fetchProbes, hi]) (by simp [Store.record?, hi])
  | some id =>
    dsimp only
    have hb := @byId?_traces st p.kind id
    cases hr : st.recordById? p.kind id with
    | none =>
      rw [hr] at hb
      exact .cast (.bind hb (.throw _)) (by simp [fetchProbes, hi])
        (by simp [Store.record?, hi, hr])
    | some r =>
      rw [hr] at hb
      exact .cast (.bind hb (.pure _)) (by simp [fetchProbes, hi]) (by simp [Store.record?, hi, hr])

theorem reload_traces (p : PrincipalHandle) :
    Traces st (reload p) (.call .reload :: fetchProbes st p)
      ((st.record? p).elim (.error p.notFound) .ok) :=
  .bind (.attempt _) (fetch_traces p)

theorem lock_traces (p : PrincipalHandle) :
    Traces st (lock p) (.call .lock :: fetchProbes st p)
      ((st.record? p).elim (.error p.notFound) .ok) :=
  .bind (.attempt _) (fetch_traces p)

theorem lock_reads {p : PrincipalHandle} {r : PrincipalRecord} (h : st.record? p = some r) :
    Reads st (lock p) (.ok r) := ⟨_, (lock_traces p).cast rfl (by rw [h]; rfl)⟩

theorem lock_reads_none {p : PrincipalHandle} (h : st.record? p = none) :
    Reads st (lock p) (.error p.notFound) := ⟨_, (lock_traces p).cast rfl (by rw [h]; rfl)⟩

theorem reload_finds (p : PrincipalHandle) : Finds st (reload p) (st.record? p) :=
  ⟨_, _, reload_traces p⟩

theorem lock_finds (p : PrincipalHandle) : Finds st (lock p) (st.record? p) :=
  ⟨_, _, lock_traces p⟩

theorem target_traces (team : TeamHandle) :
    Traces st (target team) (targetProbes st team)
      ((team.id.bind st.teamById?).elim (.error team.notFound) .ok) := by
  unfold target targetProbes
  cases hi : team.id with
  | none => exact .throw _
  | some id =>
    dsimp only
    have hg := @Teams.get?_traces st id
    cases ht : st.teamById? id with
    | none =>
      rw [ht] at hg
      exact .cast (.bind hg (.throw _)) (List.append_nil _) (by simp [ht])
    | some t =>
      rw [ht] at hg
      exact .cast (.bind hg (.pure _)) (List.append_nil _) (by simp [ht, Store.teamRecord])

theorem target_reads (team : TeamHandle) :
    Reads st (target team)
      ((team.id.bind st.teamById?).elim (.error team.notFound) .ok) :=
  ⟨_, target_traces team⟩

theorem target_finds (team : TeamHandle) : Finds st (target team) (team.id.bind st.teamById?) :=
  ⟨_, target_reads team⟩

end Principals

end TeamAccess
