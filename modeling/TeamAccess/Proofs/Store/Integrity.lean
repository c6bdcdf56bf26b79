import TeamAccess.Proofs.Store.Closed

/-! # Referential integrity

Edges join what is stored and mappings of a provider group name a stored group. No row is ever
removed but the edges, so a change keeps this as soon as the edge that it adds is one.
-/

namespace TeamAccess.Store

variable {s s' : Store} {M : Store → Uuid → Prop}

/-- Every edge joins what is stored, and every mapping of a provider group names a stored group. -/
structure Sound (s : Store) : Prop where
  memberships : ∀ e ∈ s.memberships, s.HasPrincipal e.kind e.principal ∧ s.HasTeam e.team
  userGrants : ∀ g ∈ s.userGrants,
    s.HasPrincipal (.user g.kind) g.user ∧ s.HasPermission g.permission
  teamGrants : ∀ g ∈ s.teamGrants, s.HasTeam g.team ∧ s.HasPermission g.permission
  oidcMappings : ∀ m ∈ s.oidcMappings, s.HasGroup m.group

/-- Every mapping reaches a stored team. -/
structure Anchored (s : Store) : Prop where
  ldapMappings : ∀ m ∈ s.ldapMappings, s.HasTeam m.team
  oidcMappings : ∀ m ∈ s.oidcMappings, s.HasTeam m.team

theorem sound_empty : Sound empty := by
  constructor <;> exact fun _ h => absurd h List.not_mem_nil

theorem anchored_empty : Anchored empty := by
  constructor <;> exact fun _ h => absurd h List.not_mem_nil

theorem Sound.attached (h : s.Sound) : s.Attached := fun e he => (h.memberships e he).2

/-- What is stored stays stored, and no edge is new. -/
structure Relaxes (s s' : Store) : Prop where
  principal : ∀ {kind id}, s.HasPrincipal kind id → s'.HasPrincipal kind id
  team : ∀ {id}, s.HasTeam id → s'.HasTeam id
  permission : ∀ {id}, s.HasPermission id → s'.HasPermission id
  group : ∀ {id}, s.HasGroup id → s'.HasGroup id
  memberships : s'.memberships ⊆ s.memberships
  userGrants : s'.userGrants ⊆ s.userGrants
  teamGrants : s'.teamGrants ⊆ s.teamGrants
  ldapMappings : s'.ldapMappings ⊆ s.ldapMappings
  oidcMappings : s'.oidcMappings ⊆ s.oidcMappings

section Relaxes

theorem Relaxes.refl (s : Store) : s.Relaxes s :=
  ⟨id, id, id, id, fun _ => id, fun _ => id, fun _ => id, fun _ => id, fun _ => id⟩

theorem Relaxes.sound (h : s.Relaxes s') (hs : s.Sound) : s'.Sound where
  memberships e he := (hs.memberships e (h.memberships he)).imp h.principal h.team
  userGrants g hg := (hs.userGrants g (h.userGrants hg)).imp h.principal h.permission
  teamGrants g hg := (hs.teamGrants g (h.teamGrants hg)).imp h.team h.permission
  oidcMappings m hm := h.group (hs.oidcMappings m (h.oidcMappings hm))

theorem Relaxes.anchored (h : s.Relaxes s') (hs : s.Anchored) : s'.Anchored where
  ldapMappings m hm := h.team (hs.ldapMappings m (h.ldapMappings hm))
  oidcMappings m hm := h.team (hs.oidcMappings m (h.oidcMappings hm))

theorem addPermission_relaxes {name : String} {description : Option String} {p : Permission}
    (h : s.addPermission name description = .ok (p, s')) : s.Relaxes s' := by
  obtain ⟨-, -, rfl⟩ := addPermission_ok h
  refine { Relaxes.refl s with permission := ?_ }
  rintro id ⟨q, hq, hi⟩
  exact ⟨q, List.mem_append_left _ hq, hi⟩

theorem insertTeam_relaxes {t t' : Team} (h : s.insertTeam t = .ok (t', s')) : s.Relaxes s' := by
  obtain ⟨-, -, -, rfl⟩ := insertTeam_ok h
  exact { Relaxes.refl s with team := fun ht => ht.insert t }

theorem renameTeam_relaxes {id : Uuid} {name : String}
    (h : s.renameTeam id name = .ok ((), s')) : s.Relaxes s' := by
  obtain ⟨-, rfl⟩ := renameTeam_ok h
  refine { Relaxes.refl s with team := ?_ }
  rintro _ ⟨t, ht, rfl⟩
  refine ⟨_, List.mem_map_of_mem ht, ?_⟩
  by_cases hid : t.id = id
  · rw [if_pos hid, hid]
  · rw [if_neg hid]

theorem addUser_relaxes {username : String} {profile : Profile} {u : User}
    (h : s.addUser username profile = .ok (u, s')) : s.Relaxes s' := by
  obtain ⟨-, -, rfl⟩ := addUser_ok h
  refine { Relaxes.refl s with principal := ?_ }
  rintro (k | _) id ⟨v, hv, hi⟩
  · exact ⟨v, List.mem_append_left _ hv, hi⟩
  · exact ⟨v, hv, hi⟩

theorem insertKey_relaxes (s : Store) (k : ApiKey) :
    s.Relaxes { s with apiKeys := s.apiKeys ++ [k] } := by
  refine { Relaxes.refl s with principal := ?_ }
  rintro (_ | _) id ⟨v, hv, hi⟩
  · exact ⟨v, hv, hi⟩
  · exact ⟨v, List.mem_append_left _ hv, hi⟩

theorem replaceApiKey_relaxes {id : Uuid} {key : String}
    (h : s.replaceApiKey id key = .ok ((), s')) : s.Relaxes s' := by
  obtain ⟨-, rfl⟩ := replaceApiKey_ok h
  refine { Relaxes.refl s with principal := ?_ }
  rintro (_ | _) _ ⟨k, hk, hi⟩
  · exact ⟨k, hk, hi⟩
  · refine ⟨_, List.mem_map_of_mem hk, ?_⟩
    by_cases hid : k.id = id
    · rw [if_pos hid, ← hi, hid]
    · rw [if_neg hid, hi]

theorem addOidcGroup_relaxes {name : String} {g : OidcGroup}
    (h : s.addOidcGroup name = .ok (g, s')) : s.Relaxes s' := by
  obtain ⟨-, -, rfl⟩ := addOidcGroup_ok h
  refine { Relaxes.refl s with group := ?_ }
  rintro id ⟨g, hg, hi⟩
  exact ⟨g, List.mem_append_left _ hg, hi⟩

theorem unmapLdap_relaxes (team : Uuid) (dn : String) : s.Relaxes (s.unmapLdap team dn) :=
  { Relaxes.refl s with ldapMappings := List.filter_subset_self _ }

theorem unmapOidc_relaxes (team group : Uuid) : s.Relaxes (s.unmapOidc team group) :=
  { Relaxes.refl s with oidcMappings := List.filter_subset_self _ }

theorem leave_relaxes (edge : Membership) : s.Relaxes (s.leave edge) :=
  { Relaxes.refl s with memberships := List.filter_subset_self _ }

theorem revokeTeam_relaxes (grant : TeamGrant) : s.Relaxes (s.revokeTeam grant) :=
  { Relaxes.refl s with teamGrants := List.filter_subset_self _ }

end Relaxes

theorem closed_sound : Closed M Sound where
  addPermission hs h := (addPermission_relaxes h).sound hs
  insertTeam hs h := (insertTeam_relaxes h).sound hs
  renameTeam hs h := (renameTeam_relaxes h).sound hs
  addUser hs h := (addUser_relaxes h).sound hs
  addApiKey {s s' key teams k} hs ht h := by
    obtain ⟨-, -, hm⟩ := addApiKey_ok h
    have added := (insertKey_relaxes s k).sound hs
    rw [addMemberships_ok hm]
    refine { added with memberships := fun e he => ?_ }
    rcases List.mem_append.mp he with he | he
    · exact added.memberships e he
    · obtain ⟨id, hid, rfl⟩ := List.mem_map.mp he
      exact ⟨⟨k, by simp, rfl⟩, ht id hid⟩
  replaceApiKey hs h := (replaceApiKey_relaxes h).sound hs
  addOidcGroup hs h := (addOidcGroup_relaxes h).sound hs
  mapLdap team dn hs _ := by
    rw [mapLdap_rows]
    exact { hs with }
  unmapLdap team dn hs := (unmapLdap_relaxes team dn).sound hs
  mapOidc team group hs _ hg := by
    refine mapOidc_rows _ team group ▸ { hs with oidcMappings := fun m hm => ?_ }
    rcases mem_mapOidc.mp hm with hm | rfl
    · exact hs.oidcMappings m hm
    · exact hg
  unmapOidc team group hs := (unmapOidc_relaxes team group).sound hs
  join edge hs hp ht := by
    refine join_rows _ edge ▸ { hs with memberships := fun e he => ?_ }
    rcases mem_join.mp he with he | rfl
    · exact hs.memberships e he
    · exact ⟨hp, ht⟩
  leave edge hs := (leave_relaxes edge).sound hs
  grantTeam grant hs ht hp := by
    refine grantTeam_rows _ grant ▸ { hs with teamGrants := fun g hg => ?_ }
    rcases mem_grantTeam.mp hg with hg | rfl
    · exact hs.teamGrants g hg
    · exact ⟨ht, hp⟩
  revokeTeam grant hs := (revokeTeam_relaxes grant).sound hs
  grantUser grant hs hu hp := by
    refine grantUser_rows _ grant ▸ { hs with userGrants := fun g hg => ?_ }
    rcases mem_grantUser.mp hg with hg | rfl
    · exact hs.userGrants g hg
    · exact ⟨hu, hp⟩

/-- Mappings that are only added for stored teams reach stored teams. -/
theorem closed_anchored : Closed HasTeam Anchored where
  addPermission hs h := (addPermission_relaxes h).anchored hs
  insertTeam hs h := (insertTeam_relaxes h).anchored hs
  renameTeam hs h := (renameTeam_relaxes h).anchored hs
  addUser hs h := (addUser_relaxes h).anchored hs
  addApiKey hs _ h := by
    obtain ⟨-, -, hm⟩ := addApiKey_ok h
    rw [addMemberships_ok hm]
    exact { hs with }
  replaceApiKey hs h := (replaceApiKey_relaxes h).anchored hs
  addOidcGroup hs h := (addOidcGroup_relaxes h).anchored hs
  mapLdap team dn hs ht := by
    refine mapLdap_rows _ team dn ▸ { hs with ldapMappings := fun m hm => ?_ }
    rcases mem_mapLdap.mp hm with hm | rfl
    · exact hs.ldapMappings m hm
    · exact ht
  unmapLdap team dn hs := (unmapLdap_relaxes team dn).anchored hs
  mapOidc team group hs ht _ := by
    refine mapOidc_rows _ team group ▸ { hs with oidcMappings := fun m hm => ?_ }
    rcases mem_mapOidc.mp hm with hm | rfl
    · exact hs.oidcMappings m hm
    · exact ht
  unmapOidc team group hs := (unmapOidc_relaxes team group).anchored hs
  join edge hs _ _ := by
    rw [join_rows]
    exact { hs with }
  leave edge hs := (leave_relaxes edge).anchored hs
  grantTeam grant hs _ _ := by
    rw [grantTeam_rows]
    exact { hs with }
  revokeTeam grant hs := (revokeTeam_relaxes grant).anchored hs
  grantUser grant hs _ _ := by
    rw [grantUser_rows]
    exact { hs with }

end TeamAccess.Store
