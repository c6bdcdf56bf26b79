import TeamAccess.Proofs.Authorization.Grant
import TeamAccess.Proofs.Store.Closed

/-! # What a change of the rows does to the grants

A handle stands for a stored principal, which holds permissions directly and through its teams. A
change of the rows shifts what is granted: it brings some permissions to some handles and takes some
from some. A row under an identifier that no edge names shifts nothing, and an edge shifts what goes
over it.
-/

namespace TeamAccess.Store

variable {s s₁ s' : Store} {p : PrincipalHandle} {kind : PrincipalKind} {id team : Uuid}
  {name : String}

/-- A handle stands for the stored principal of its kind with an identifier. -/
def Stands (s : Store) (p : PrincipalHandle) (id : Uuid) : Prop :=
  match p.kind with
  | .user kind => ∃ u ∈ s.users, u.kind = kind ∧ u.username = p.name ∧ u.id = id
  | .apiKey => p.id = some id ∧ ∃ k ∈ s.apiKeys, k.id = id

/-- A handle stands for the stored principal that another one names by its identifier. -/
def Denotes (s : Store) (named p : PrincipalHandle) : Prop :=
  p.kind = named.kind ∧ ∃ id, named.id = some id ∧ s.Stands p id

/-- A handle stands for a member of the team that another one names by its identifier. -/
def BelongsTo (s : Store) (team : TeamHandle) (p : PrincipalHandle) : Prop :=
  ∃ id principal, team.id = some id ∧ s.Stands p principal ∧
    ⟨p.kind, principal, id⟩ ∈ s.memberships

/-- A user is granted the permission of a name without a team; API keys never are. -/
def Direct (s : Store) (kind : PrincipalKind) (id : Uuid) (name : String) : Prop :=
  ∃ k, kind = .user k ∧ ∃ q ∈ s.permissions, q.name = name ∧ ⟨k, id, q.id⟩ ∈ s.userGrants

/-- A principal is granted the permission of a name, directly or through a team. -/
def Holds (s : Store) (kind : PrincipalKind) (id : Uuid) (name : String) : Prop :=
  s.Direct kind id name ∨ s.Inherits kind id name

theorem granted_iff_stands :
    s.Granted p name ↔ ∃ id, s.Stands p id ∧ s.Holds p.kind id name := by
  unfold Granted Stands Holds Direct DirectlyGranted
  cases hp : p.kind with
  | user kind =>
    constructor
    · rintro ⟨u, hu, rfl, hn, hg⟩
      exact ⟨u.id, ⟨u, hu, rfl, hn, rfl⟩, hg.imp (fun hd => ⟨u.kind, rfl, hd⟩) fun hi => hi⟩
    · rintro ⟨-, ⟨u, hu, rfl, hn, rfl⟩, hg⟩
      refine ⟨u, hu, rfl, hn, hg.imp ?_ fun hi => hi⟩
      rintro ⟨k, hk, hd⟩
      obtain rfl := PrincipalKind.user.inj hk
      exact hd
  | apiKey =>
    constructor
    · rintro ⟨k, hk, hi, hg⟩
      exact ⟨k.id, ⟨hi, k, hk, rfl⟩, .inr hg⟩
    · rintro ⟨-, ⟨hi, k, hk, rfl⟩, ⟨k', hc, -⟩ | hg⟩
      · cases hc
      · exact ⟨k, hk, hi, hg⟩

theorem inherits_iff_hasTeam : s.Inherits kind id name ↔
    ∃ team, s.HasTeam team ∧ ⟨kind, id, team⟩ ∈ s.memberships ∧ s.TeamGranted team name := by
  constructor
  · rintro ⟨t, ht, hm, hg⟩
    exact ⟨t.id, ⟨t, ht, rfl⟩, hm, hg⟩
  · rintro ⟨-, ⟨t, ht, rfl⟩, hm, hg⟩
    exact ⟨t, ht, hm, hg⟩

/-- If there are memberships under an identifier, it is that of a stored team. -/
def Settled (s : Store) (team : Uuid) : Prop :=
  ∀ e ∈ s.memberships, e.team = team → s.HasTeam team

theorem Settled.insert (h : s.Settled team) (t : Team) :
    Settled { s with teams := s.teams ++ [t] } team := fun e he ht => (h e he ht).insert t

theorem Attached.settled (h : s.Attached) (team : Uuid) : s.Settled team :=
  fun e he ht => ht ▸ h e he

/-- What a change of the rows brings to a handle at most, and what it takes from one at most. -/
structure Shifts (gain loss : PrincipalHandle → String → Prop) (s s' : Store) : Prop where
  gained : ∀ p name, s'.Granted p name → s.Granted p name ∨ gain p name
  lost : ∀ p name, s.Granted p name → s'.Granted p name ∨ loss p name

namespace Shifts

variable {gain loss : PrincipalHandle → String → Prop}

theorem of_iff (h : ∀ p name, s'.Granted p name ↔ s.Granted p name) : Shifts gain loss s s' :=
  ⟨fun p name hg => .inl ((h p name).mp hg), fun p name hg => .inl ((h p name).mpr hg)⟩

theorem refl (s : Store) : Shifts gain loss s s := .of_iff fun _ _ => Iff.rfl

theorem trans (h : Shifts gain loss s s₁) (h' : Shifts gain loss s₁ s') :
    Shifts gain loss s s' where
  gained p name hg := (h'.gained p name hg).elim (h.gained p name) .inr
  lost p name hg := (h.lost p name hg).elim (h'.lost p name) .inr

theorem mono {gain' loss' : PrincipalHandle → String → Prop} (h : Shifts gain loss s s')
    (hg : ∀ p name, gain p name → gain' p name) (hl : ∀ p name, loss p name → loss' p name) :
    Shifts gain' loss' s s' where
  gained p name hp := (h.gained p name hp).imp_right (hg p name)
  lost p name hp := (h.lost p name hp).imp_right (hl p name)

/-- It is enough to look at what the principals hold that the handles stand for. -/
theorem of_holds
    (hg : ∀ p id, s'.Stands p id → ∀ name, s'.Holds p.kind id name →
      s.Stands p id ∧ s.Holds p.kind id name ∨ gain p name)
    (hl : ∀ p id, s.Stands p id → ∀ name, s.Holds p.kind id name →
      s'.Stands p id ∧ s'.Holds p.kind id name ∨ loss p name) : Shifts gain loss s s' where
  gained p name h := by
    obtain ⟨id, hs, hh⟩ := granted_iff_stands.mp h
    exact (hg p id hs name hh).imp_left fun hh => granted_iff_stands.mpr ⟨id, hh⟩
  lost p name h := by
    obtain ⟨id, hs, hh⟩ := granted_iff_stands.mp h
    exact (hl p id hs name hh).imp_left fun hh => granted_iff_stands.mpr ⟨id, hh⟩

section Rows

/-! New rows under identifiers that no edge names, and new names of rows. -/

/-- Teams and keys matter by their identifiers only. -/
theorem of_ids (hu : s'.users = s.users) (hk : s'.apiKeys.map (·.id) = s.apiKeys.map (·.id))
    (ht : s'.teams.map (·.id) = s.teams.map (·.id)) (hp : s'.permissions = s.permissions)
    (hm : s'.memberships = s.memberships) (hd : s'.userGrants = s.userGrants)
    (hg : s'.teamGrants = s.teamGrants) : Shifts gain loss s s' := by
  have keys (id : Uuid) : (∃ k ∈ s'.apiKeys, k.id = id) ↔ ∃ k ∈ s.apiKeys, k.id = id := by
    rw [← List.mem_map, hk, List.mem_map]
  have teams (id : Uuid) : s'.HasTeam id ↔ s.HasTeam id := by
    unfold HasTeam
    rw [← List.mem_map, ht, List.mem_map]
  refine of_iff fun p name => ?_
  simp only [granted_iff_stands, Stands, Holds, Direct, inherits_iff_hasTeam, TeamGranted, hu, keys,
    teams, hp, hm, hd, hg]

theorem addPermission {description : Option String} {q : Permission}
    (h : s.addPermission name description = .ok (q, s')) : Shifts gain loss s s' := by
  obtain ⟨-, rfl, rfl⟩ := addPermission_ok h
  refine of_iff fun p name => ?_
  -- no grant names the new permission
  have user (k : UserKind) (id : Uuid) : ⟨k, id, s.freshId⟩ ∉ s.userGrants := fun hm =>
    s.freshId_not_mem (by simp [usedIds, List.mem_map_of_mem (f := UserGrant.permission) hm])
  have team (id : Uuid) : ⟨id, s.freshId⟩ ∉ s.teamGrants := fun hm =>
    s.freshId_not_mem (by simp [usedIds, List.mem_map_of_mem (f := TeamGrant.permission) hm])
  simp [granted_iff_stands, Stands, Holds, Direct, Inherits, TeamGranted, or_and_right,
    exists_or, user, team]

/-- A new team has no members unless memberships wait for it under its identifier. -/
theorem insertTeam {t t' : Team} (h : s.insertTeam t = .ok (t', s')) (hn : s.Settled t.id) :
    Shifts gain loss s s' := by
  obtain ⟨-, -, -, rfl⟩ := insertTeam_ok h
  refine of_iff fun p name => ?_
  have same (kind : PrincipalKind) (id team : Uuid) {P : Prop} :
      HasTeam { s with teams := s.teams ++ [t] } team ∧ ⟨kind, id, team⟩ ∈ s.memberships ∧ P ↔
        s.HasTeam team ∧ ⟨kind, id, team⟩ ∈ s.memberships ∧ P := by
    refine and_congr_left fun hm => ⟨?_, fun h => h.insert t⟩
    rintro ⟨t', ht', rfl⟩
    rcases List.mem_append.mp ht' with ht' | ht'
    · exact ⟨t', ht', rfl⟩
    · obtain rfl := List.mem_singleton.mp ht'
      exact hn _ hm.1 rfl
  simp only [granted_iff_stands, Stands, Holds, Direct, inherits_iff_hasTeam, TeamGranted, same]

theorem addTeam {t : Team} (h : s.addTeam name = .ok (t, s')) : Shifts gain loss s s' := by
  refine .insertTeam h fun e he ht => absurd ?_ s.freshId_not_mem
  have hm : s.freshId ∈ s.memberships.map (·.team) := List.mem_map.mpr ⟨e, he, ht⟩
  simp only [usedIds, List.mem_append, hm, or_true, true_or]

/-- No edge names an identifier that is issued next. -/
theorem not_holds_freshId (s : Store) (kind : PrincipalKind) (name : String) :
    ¬ s.Holds kind s.freshId name := by
  rintro (⟨k, -, q, -, -, hm⟩ | ⟨t, -, hm, -⟩)
  · exact s.freshId_not_mem (by simp [usedIds, List.mem_map_of_mem (f := UserGrant.user) hm])
  · exact s.freshId_not_mem (by simp [usedIds, List.mem_map_of_mem (f := Membership.principal) hm])

/-- A new principal that holds nothing. -/
theorem of_stands (hs : ∀ p id, s.Stands p id → s'.Stands p id)
    (hn : ∀ p id, s'.Stands p id → s.Stands p id ∨ id = s.freshId)
    (hh : ∀ kind id name, s'.Holds kind id name ↔ s.Holds kind id name) :
    Shifts gain loss s s' := by
  refine of_holds (fun p id hp name hg => ?_) fun p id hp name hg => ?_
  · rw [hh] at hg
    rcases hn p id hp with hp | rfl
    · exact .inl ⟨hp, hg⟩
    · exact absurd hg (not_holds_freshId s p.kind name)
  · exact .inl ⟨hs p id hp, (hh _ _ _).mpr hg⟩

theorem addUser {username : String} {profile : Profile} {u : User}
    (h : s.addUser username profile = .ok (u, s')) : Shifts gain loss s s' := by
  obtain ⟨-, rfl, rfl⟩ := addUser_ok h
  refine of_stands (fun p id hp => ?_) (fun p id hp => ?_) fun _ _ _ => Iff.rfl
  · unfold Stands at hp ⊢
    cases hk : p.kind with
    | apiKey => simpa only [hk] using hp
    | user kind =>
      obtain ⟨u, hu, hp⟩ := by simpa only [hk] using hp
      exact ⟨u, by simp [hu], hp⟩
  · unfold Stands at hp ⊢
    cases hk : p.kind with
    | apiKey => exact .inl (by simpa only [hk] using hp)
    | user kind =>
      obtain ⟨u, hu, hp⟩ := by simpa only [hk] using hp
      rcases List.mem_append.mp hu with hu | hu
      · exact .inl ⟨u, hu, hp⟩
      · exact .inr (by rw [← hp.2.2, List.mem_singleton.mp hu])

theorem addKey (key : String) :
    Shifts gain loss s { s with apiKeys := s.apiKeys ++ [⟨s.freshId, key⟩] } := by
  refine of_stands (fun p id hp => ?_) (fun p id hp => ?_) fun _ _ _ => Iff.rfl
  · unfold Stands at hp ⊢
    cases hk : p.kind with
    | user kind => simpa only [hk] using hp
    | apiKey =>
      obtain ⟨hi, k, hm, he⟩ := by simpa only [hk] using hp
      exact ⟨hi, k, by simp [hm], he⟩
  · unfold Stands at hp ⊢
    cases hk : p.kind with
    | user kind => exact .inl (by simpa only [hk] using hp)
    | apiKey =>
      obtain ⟨hi, k, hm, he⟩ := by simpa only [hk] using hp
      rcases List.mem_append.mp hm with hm | hm
      · exact .inl ⟨hi, k, hm, he⟩
      · exact .inr (by rw [← he, List.mem_singleton.mp hm])

theorem renameTeam {id : Uuid} {name : String} (h : s.renameTeam id name = .ok ((), s')) :
    Shifts gain loss s s' := by
  obtain ⟨-, rfl⟩ := renameTeam_ok h
  exact of_ids rfl rfl (map_replace (fun t : Team => t.id = id) fun _ h => h) rfl rfl rfl rfl

theorem replaceApiKey {id : Uuid} {key : String} (h : s.replaceApiKey id key = .ok ((), s')) :
    Shifts gain loss s s' := by
  obtain ⟨-, rfl⟩ := replaceApiKey_ok h
  exact of_ids rfl (map_replace (fun k : ApiKey => k.id = id) fun _ h => h) rfl rfl rfl rfl rfl

theorem addOidcGroup {g : OidcGroup} (h : s.addOidcGroup name = .ok (g, s')) :
    Shifts gain loss s s' := by
  obtain ⟨-, -, rfl⟩ := addOidcGroup_ok h
  exact of_ids rfl rfl rfl rfl rfl rfl rfl

theorem mapLdap (s : Store) (team : Uuid) (dn : String) :
    Shifts gain loss s (s.mapLdap team dn) := by
  rw [mapLdap_rows]
  exact of_ids rfl rfl rfl rfl rfl rfl rfl

theorem unmapLdap (s : Store) (team : Uuid) (dn : String) :
    Shifts gain loss s (s.unmapLdap team dn) := of_ids rfl rfl rfl rfl rfl rfl rfl

theorem mapOidc (s : Store) (team group : Uuid) : Shifts gain loss s (s.mapOidc team group) := by
  rw [mapOidc_rows]
  exact of_ids rfl rfl rfl rfl rfl rfl rfl

theorem unmapOidc (s : Store) (team group : Uuid) :
    Shifts gain loss s (s.unmapOidc team group) := of_ids rfl rfl rfl rfl rfl rfl rfl

end Rows

section Edges

variable {m : List Membership} {g : List TeamGrant} {d : List UserGrant}

/-- Memberships shift what the principals that they are of inherit. -/
theorem memberships
    (hg : ∀ e ∈ m, e ∉ s.memberships → ∀ p, p.kind = e.kind → s.Stands p e.principal →
      ∀ name, gain p name)
    (hl : ∀ e ∈ s.memberships, e ∉ m → ∀ p, p.kind = e.kind → s.Stands p e.principal →
      ∀ name, loss p name) :
    Shifts gain loss s { s with memberships := m } := by
  refine of_holds (fun p id hp name hh => ?_) fun p id hp name hh => ?_
  · rcases hh with hh | ⟨t, ht, he, hh⟩
    · exact .inl ⟨hp, .inl hh⟩
    · by_cases hm : ⟨p.kind, id, t.id⟩ ∈ s.memberships
      · exact .inl ⟨hp, .inr ⟨t, ht, hm, hh⟩⟩
      · exact .inr (hg _ he hm p rfl hp name)
  · rcases hh with hh | ⟨t, ht, he, hh⟩
    · exact .inl ⟨hp, .inl hh⟩
    · by_cases hm : ⟨p.kind, id, t.id⟩ ∈ m
      · exact .inl ⟨hp, .inr ⟨t, ht, hm, hh⟩⟩
      · exact .inr (hl _ he hm p rfl hp name)

/-- Grants to a team shift what its members inherit. -/
theorem teamGrants
    (hg : ∀ x ∈ g, x ∉ s.teamGrants → ∀ p id, s.Stands p id →
      ⟨p.kind, id, x.team⟩ ∈ s.memberships → ∀ q ∈ s.permissions, q.id = x.permission →
      gain p q.name)
    (hl : ∀ x ∈ s.teamGrants, x ∉ g → ∀ p id, s.Stands p id →
      ⟨p.kind, id, x.team⟩ ∈ s.memberships → ∀ q ∈ s.permissions, q.id = x.permission →
      loss p q.name) :
    Shifts gain loss s { s with teamGrants := g } := by
  refine of_holds (fun p id hp name hh => ?_) fun p id hp name hh => ?_
  · rcases hh with hh | ⟨t, ht, he, q, hq, rfl, hx⟩
    · exact .inl ⟨hp, .inl hh⟩
    · by_cases hm : ⟨t.id, q.id⟩ ∈ s.teamGrants
      · exact .inl ⟨hp, .inr ⟨t, ht, he, q, hq, rfl, hm⟩⟩
      · exact .inr (hg _ hx hm p id hp he q hq rfl)
  · rcases hh with hh | ⟨t, ht, he, q, hq, rfl, hx⟩
    · exact .inl ⟨hp, .inl hh⟩
    · by_cases hm : ⟨t.id, q.id⟩ ∈ g
      · exact .inl ⟨hp, .inr ⟨t, ht, he, q, hq, rfl, hm⟩⟩
      · exact .inr (hl _ hx hm p id hp he q hq rfl)

/-- Grants to a user shift what it holds directly. -/
theorem userGrants
    (hg : ∀ x ∈ d, x ∉ s.userGrants → ∀ p, p.kind = .user x.kind → s.Stands p x.user →
      ∀ q ∈ s.permissions, q.id = x.permission → gain p q.name)
    (hl : ∀ x ∈ s.userGrants, x ∈ d) : Shifts gain loss s { s with userGrants := d } := by
  refine of_holds (fun p id hp name hh => ?_) fun p id hp name hh => ?_
  · rcases hh with ⟨k, hk, q, hq, rfl, hx⟩ | hh
    · by_cases hm : ⟨k, id, q.id⟩ ∈ s.userGrants
      · exact .inl ⟨hp, .inl ⟨k, hk, q, hq, rfl, hm⟩⟩
      · exact .inr (hg _ hx hm p hk hp q hq rfl)
    · exact .inl ⟨hp, .inr hh⟩
  · rcases hh with ⟨k, hk, q, hq, rfl, hx⟩ | hh
    · exact .inl ⟨hp, .inl ⟨k, hk, q, hq, rfl, hl _ hx⟩⟩
    · exact .inl ⟨hp, .inr hh⟩

/-- A new API key brings something to itself only. -/
theorem addApiKey {key : String} {teams : List Uuid} {k : ApiKey}
    (h : s.addApiKey key teams = .ok (k, s'))
    (hg : ∀ p : PrincipalHandle, p.kind = .apiKey → p.id = some k.id → ∀ name, gain p name) :
    Shifts gain loss s s' := by
  obtain ⟨-, rfl, hm⟩ := addApiKey_ok h
  rw [addMemberships_ok hm]
  refine (addKey key).trans (memberships (fun e he hn p hk hp => ?_) fun e he hn => ?_)
  · rcases List.mem_append.mp he with he | he
    · exact absurd he hn
    · obtain ⟨team, -, rfl⟩ := List.mem_map.mp he
      refine hg p hk ?_
      unfold Stands at hp
      rw [hk] at hp
      exact hp.1
  · exact absurd (List.mem_append.mpr (.inl he)) hn

end Edges

end Shifts

end TeamAccess.Store
