import TeamAccess.Store.Write

/-! # Changes that are carried out

What a change that breaks no rule has met and what it has done. All that is known of the changes of
single rows follows from here.
-/

namespace TeamAccess.Store

variable {s s' : Store}

theorem addPermission_ok {name : String} {description : Option String} {p : Permission}
    (h : s.addPermission name description = .ok (p, s')) :
    s.permission? name = none ∧ p = ⟨s.freshId, name, description⟩ ∧
      s' = { s with permissions := s.permissions ++ [p] } := by
  unfold addPermission at h
  split at h
  · simp at h
  · rename_i hn
    obtain ⟨rfl, rfl⟩ := by simpa using h
    exact ⟨by simpa using hn, rfl, rfl⟩

theorem insertTeam_ok {t t' : Team} (h : s.insertTeam t = .ok (t', s')) :
    s.team? t.name = none ∧ s.teamById? t.id = none ∧ t' = t ∧
      s' = { s with teams := s.teams ++ [t] } := by
  unfold insertTeam at h
  split at h
  · simp at h
  · split at h
    · simp at h
    · rename_i hn hi
      obtain ⟨rfl, rfl⟩ := by simpa using h
      exact ⟨by simpa using hn, by simpa using hi, rfl, rfl⟩

theorem renameTeam_ok {id : Uuid} {name : String} (h : s.renameTeam id name = .ok ((), s')) :
    (∀ t ∈ s.teams, t.name = name → t.id = id) ∧
      s' = { s with teams := s.teams.map fun t => if t.id = id then ⟨id, name⟩ else t } := by
  unfold renameTeam at h
  split at h
  · simp at h
  · rename_i hn
    obtain rfl := by simpa using h
    exact ⟨by simpa using hn, rfl⟩

theorem addUser_ok {username : String} {profile : Profile} {u : User}
    (h : s.addUser username profile = .ok (u, s')) :
    s.user? profile.kind username = none ∧ u = ⟨s.freshId, username, profile⟩ ∧
      s' = { s with users := s.users ++ [u] } := by
  unfold addUser at h
  split at h
  · simp at h
  · rename_i hn
    obtain ⟨rfl, rfl⟩ := by simpa using h
    exact ⟨by simpa using hn, rfl, rfl⟩

theorem addMemberships_ok {kind : PrincipalKind} {principal : Uuid} {teams : List Uuid}
    (h : s.addMemberships kind principal teams = .ok s') :
    s' = { s with memberships := s.memberships ++ teams.map fun t => ⟨kind, principal, t⟩ } := by
  induction teams generalizing s with
  | nil =>
    obtain rfl := by simpa [addMemberships] using h
    simp
  | cons team teams ih =>
    unfold addMemberships at h
    split at h
    · simp at h
    · rw [ih h]
      simp

theorem addApiKey_ok {key : String} {teams : List Uuid} {k : ApiKey}
    (h : s.addApiKey key teams = .ok (k, s')) :
    s.apiKey? key = none ∧ k = ⟨s.freshId, key⟩ ∧
      addMemberships { s with apiKeys := s.apiKeys ++ [k] } .apiKey k.id teams = .ok s' := by
  unfold addApiKey at h
  split at h
  · simp at h
  · rename_i hn
    cases hm : addMemberships { s with apiKeys := s.apiKeys ++ [⟨s.freshId, key⟩] }
      .apiKey s.freshId teams with
    | error f => simp [hm, Except.map] at h
    | ok joined =>
      obtain ⟨rfl, rfl⟩ := by simpa [hm, Except.map] using h
      exact ⟨by simpa using hn, rfl, hm⟩

theorem replaceApiKey_ok {id : Uuid} {key : String} (h : s.replaceApiKey id key = .ok ((), s')) :
    (∀ k ∈ s.apiKeys, k.key = key → k.id = id) ∧
      s' = { s with apiKeys := s.apiKeys.map fun k => if k.id = id then ⟨id, key⟩ else k } := by
  unfold replaceApiKey at h
  split at h
  · simp at h
  · rename_i hn
    obtain rfl := by simpa using h
    exact ⟨by simpa using hn, rfl⟩

theorem addOidcGroup_ok {name : String} {g : OidcGroup}
    (h : s.addOidcGroup name = .ok (g, s')) :
    s.oidcGroup? name = none ∧ g = ⟨s.freshId, name⟩ ∧
      s' = { s with oidcGroups := s.oidcGroups ++ [g] } := by
  unfold addOidcGroup at h
  split at h
  · simp at h
  · rename_i hn
    obtain ⟨rfl, rfl⟩ := by simpa using h
    exact ⟨by simpa using hn, rfl, rfl⟩

section Frame

/-! Adding an edge changes one table. -/

variable (s : Store)

theorem mapLdap_rows (team : Uuid) (dn : String) :
    s.mapLdap team dn = { s with ldapMappings := (s.mapLdap team dn).ldapMappings } := by
  unfold mapLdap
  split <;> rfl

theorem mapOidc_rows (team group : Uuid) :
    s.mapOidc team group = { s with oidcMappings := (s.mapOidc team group).oidcMappings } := by
  unfold mapOidc
  split <;> rfl

theorem join_rows (edge : Membership) :
    s.join edge = { s with memberships := (s.join edge).memberships } := by
  unfold join
  split <;> rfl

theorem grantTeam_rows (grant : TeamGrant) :
    s.grantTeam grant = { s with teamGrants := (s.grantTeam grant).teamGrants } := by
  unfold grantTeam
  split <;> rfl

theorem grantUser_rows (grant : UserGrant) :
    s.grantUser grant = { s with userGrants := (s.grantUser grant).userGrants } := by
  unfold grantUser
  split <;> rfl

variable {s}

theorem mem_mapLdap {team : Uuid} {dn : String} {m : LdapMapping} :
    m ∈ (s.mapLdap team dn).ldapMappings ↔ m ∈ s.ldapMappings ∨ m = ⟨team, dn⟩ := by
  unfold mapLdap
  split <;> simp_all

theorem mem_mapOidc {team group : Uuid} {m : OidcMapping} :
    m ∈ (s.mapOidc team group).oidcMappings ↔ m ∈ s.oidcMappings ∨ m = ⟨team, group⟩ := by
  unfold mapOidc
  split <;> simp_all

theorem mem_join {edge e : Membership} :
    e ∈ (s.join edge).memberships ↔ e ∈ s.memberships ∨ e = edge := by
  unfold join
  split <;> simp_all

theorem mem_grantTeam {grant g : TeamGrant} :
    g ∈ (s.grantTeam grant).teamGrants ↔ g ∈ s.teamGrants ∨ g = grant := by
  unfold grantTeam
  split <;> simp_all

theorem mem_grantUser {grant g : UserGrant} :
    g ∈ (s.grantUser grant).userGrants ↔ g ∈ s.userGrants ∨ g = grant := by
  unfold grantUser
  split <;> simp_all

end Frame

end TeamAccess.Store
