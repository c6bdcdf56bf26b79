import TeamAccess.Proofs.Store.Distinct

/-! # Invariants of the rows

An invariant is closed if every change of the rows leads from a store within it to a store within
it, where only what is stored is joined by an edge, and only the teams of a given class are mapped.
Removing and creating tables are no changes of the rows.
-/

namespace TeamAccess.Store

/-- A team has this identifier. -/
def HasTeam (s : Store) (id : Uuid) : Prop := ∃ t ∈ s.teams, t.id = id

/-- A permission has this identifier. -/
def HasPermission (s : Store) (id : Uuid) : Prop := ∃ p ∈ s.permissions, p.id = id

/-- A provider group has this identifier. -/
def HasGroup (s : Store) (id : Uuid) : Prop := ∃ g ∈ s.oidcGroups, g.id = id

/-- A principal of a kind has this identifier. -/
def HasPrincipal (s : Store) : PrincipalKind → Uuid → Prop
  | .user k, id => ∃ u ∈ s.users, u.kind = k ∧ u.id = id
  | .apiKey, id => ∃ k ∈ s.apiKeys, k.id = id

/-- Every membership is one in a stored team. -/
def Attached (s : Store) : Prop := ∀ e ∈ s.memberships, s.HasTeam e.team

theorem HasTeam.insert {s : Store} {id : Uuid} (h : s.HasTeam id) (t : Team) :
    HasTeam { s with teams := s.teams ++ [t] } id := by
  obtain ⟨t', ht', hi⟩ := h
  exact ⟨t', by simp [ht'], hi⟩

/-- Every change of the rows stays within `I`, if mappings are added for teams with `M` only. -/
structure Closed (M : Store → Uuid → Prop) (I : Store → Prop) : Prop where
  addPermission : ∀ {s s' name description p}, I s →
    s.addPermission name description = .ok (p, s') → I s'
  insertTeam : ∀ {s s' t t'}, I s → s.insertTeam t = .ok (t', s') → I s'
  renameTeam : ∀ {s s' id name}, I s → s.renameTeam id name = .ok ((), s') → I s'
  addUser : ∀ {s s' username profile u}, I s → s.addUser username profile = .ok (u, s') → I s'
  addApiKey : ∀ {s s' key teams k}, I s → (∀ id ∈ teams, s.HasTeam id) →
    s.addApiKey key teams = .ok (k, s') → I s'
  replaceApiKey : ∀ {s s' id key}, I s → s.replaceApiKey id key = .ok ((), s') → I s'
  addOidcGroup : ∀ {s s' name g}, I s → s.addOidcGroup name = .ok (g, s') → I s'
  mapLdap : ∀ {s} team dn, I s → M s team → I (s.mapLdap team dn)
  unmapLdap : ∀ {s} team dn, I s → I (s.unmapLdap team dn)
  mapOidc : ∀ {s} team group, I s → M s team → s.HasGroup group → I (s.mapOidc team group)
  unmapOidc : ∀ {s} team group, I s → I (s.unmapOidc team group)
  join : ∀ {s} edge, I s → s.HasPrincipal edge.kind edge.principal → s.HasTeam edge.team →
    I (s.join edge)
  leave : ∀ {s} edge, I s → I (s.leave edge)
  grantTeam : ∀ {s} grant, I s → s.HasTeam grant.team → s.HasPermission grant.permission →
    I (s.grantTeam grant)
  revokeTeam : ∀ {s} grant, I s → I (s.revokeTeam grant)
  grantUser : ∀ {s} grant, I s → s.HasPrincipal (.user grant.kind) grant.user →
    s.HasPermission grant.permission → I (s.grantUser grant)

variable {M : Store → Uuid → Prop} {I : Store → Prop}

theorem closed_distinct : Closed M Distinct where
  addPermission := Distinct.addPermission
  insertTeam := Distinct.insertTeam
  renameTeam := Distinct.renameTeam
  addUser := Distinct.addUser
  addApiKey h _ := h.addApiKey
  replaceApiKey := Distinct.replaceApiKey
  addOidcGroup := Distinct.addOidcGroup
  mapLdap team dn h _ := h.mapLdap team dn
  unmapLdap := Distinct.unmapLdap
  mapOidc team group h _ _ := h.mapOidc team group
  unmapOidc := Distinct.unmapOidc
  join edge h _ _ := h.join edge
  leave := Distinct.leave
  grantTeam grant h _ _ := h.grantTeam grant
  revokeTeam := Distinct.revokeTeam
  grantUser grant h _ _ := h.grantUser grant

/-- No table is created or removed. -/
theorem closed_missing (tables : List Table) : Closed M fun s => s.missing = tables where
  addPermission hs h := by
    obtain ⟨-, -, rfl⟩ := addPermission_ok h
    exact hs
  insertTeam hs h := by
    obtain ⟨-, -, -, rfl⟩ := insertTeam_ok h
    exact hs
  renameTeam hs h := by
    obtain ⟨-, rfl⟩ := renameTeam_ok h
    exact hs
  addUser hs h := by
    obtain ⟨-, -, rfl⟩ := addUser_ok h
    exact hs
  addApiKey hs _ h := by
    obtain ⟨-, -, hm⟩ := addApiKey_ok h
    rw [addMemberships_ok hm]
    exact hs
  replaceApiKey hs h := by
    obtain ⟨-, rfl⟩ := replaceApiKey_ok h
    exact hs
  addOidcGroup hs h := by
    obtain ⟨-, -, rfl⟩ := addOidcGroup_ok h
    exact hs
  mapLdap team dn hs _ := by rwa [mapLdap_rows]
  unmapLdap _ _ hs := hs
  mapOidc team group hs _ _ := by rwa [mapOidc_rows]
  unmapOidc _ _ hs := hs
  join edge hs _ _ := by rwa [join_rows]
  leave _ hs := hs
  grantTeam grant hs _ _ := by rwa [grantTeam_rows]
  revokeTeam _ hs := hs
  grantUser grant hs _ _ := by rwa [grantUser_rows]

theorem closed_true : Closed M fun _ => True := by
  constructor <;> intros <;> trivial

namespace Closed

/-- A closed invariant may be given up where a table is missing. -/
theorem while_complete (hI : Closed M I) : Closed M fun s => s.missing = [] → I s :=
  -- no change of the rows puts a table back
  have back (s : Store) : Closed M fun s' => s'.missing = s.missing := closed_missing s.missing
  { addPermission := fun {s} _ _ _ _ hs h hc =>
      hI.addPermission (hs (((back s).addPermission rfl h).symm.trans hc)) h
    insertTeam := fun {s} _ _ _ hs h hc =>
      hI.insertTeam (hs (((back s).insertTeam rfl h).symm.trans hc)) h
    renameTeam := fun {s} _ _ _ hs h hc =>
      hI.renameTeam (hs (((back s).renameTeam rfl h).symm.trans hc)) h
    addUser := fun {s} _ _ _ _ hs h hc =>
      hI.addUser (hs (((back s).addUser rfl h).symm.trans hc)) h
    addApiKey := fun {s} _ _ _ _ hs ht h hc =>
      hI.addApiKey (hs (((back s).addApiKey rfl ht h).symm.trans hc)) ht h
    replaceApiKey := fun {s} _ _ _ hs h hc =>
      hI.replaceApiKey (hs (((back s).replaceApiKey rfl h).symm.trans hc)) h
    addOidcGroup := fun {s} _ _ _ hs h hc =>
      hI.addOidcGroup (hs (((back s).addOidcGroup rfl h).symm.trans hc)) h
    mapLdap := fun {s} team dn hs ht hc =>
      hI.mapLdap team dn (hs (((back s).mapLdap team dn rfl ht).symm.trans hc)) ht
    unmapLdap := fun team dn hs hc => hI.unmapLdap team dn (hs hc)
    mapOidc := fun {s} team group hs ht hg hc =>
      hI.mapOidc team group (hs (((back s).mapOidc team group rfl ht hg).symm.trans hc)) ht hg
    unmapOidc := fun team group hs hc => hI.unmapOidc team group (hs hc)
    join := fun {s} edge hs hp ht hc =>
      hI.join edge (hs (((back s).join edge rfl hp ht).symm.trans hc)) hp ht
    leave := fun edge hs hc => hI.leave edge (hs hc)
    grantTeam := fun {s} grant hs ht hp hc =>
      hI.grantTeam grant (hs (((back s).grantTeam grant rfl ht hp).symm.trans hc)) ht hp
    revokeTeam := fun grant hs hc => hI.revokeTeam grant (hs hc)
    grantUser := fun {s} grant hs hu hp hc =>
      hI.grantUser grant (hs (((back s).grantUser grant rfl hu hp).symm.trans hc)) hu hp }

end Closed

end TeamAccess.Store
