import TeamAccess.Proofs.Store.Edges

/-! # The presence of edges

Memberships, grants and mappings are edges of one graph. Each change of an edge sets its presence
and that of no other; changes of entities set none, but a new API key comes with its first teams.
-/

namespace TeamAccess

/-- What is there or not between two things. -/
inductive Edge where
  | member (row : Membership)
  | teamGrant (row : TeamGrant)
  | userGrant (row : UserGrant)
  | ldap (row : LdapMapping)
  | oidc (row : OidcMapping)
  deriving DecidableEq, Repr

namespace Store

variable {s s' : Store}

/-- An edge is present. -/
def Has (s : Store) : Edge → Prop
  | .member row => row ∈ s.memberships
  | .teamGrant row => row ∈ s.teamGrants
  | .userGrant row => row ∈ s.userGrants
  | .ldap row => row ∈ s.ldapMappings
  | .oidc row => row ∈ s.oidcMappings

instance (s : Store) : (e : Edge) → Decidable (s.Has e)
  | .member row => inferInstanceAs (Decidable (row ∈ s.memberships))
  | .teamGrant row => inferInstanceAs (Decidable (row ∈ s.teamGrants))
  | .userGrant row => inferInstanceAs (Decidable (row ∈ s.userGrants))
  | .ldap row => inferInstanceAs (Decidable (row ∈ s.ldapMappings))
  | .oidc row => inferInstanceAs (Decidable (row ∈ s.oidcMappings))

theorem not_has_empty (e : Edge) : ¬ empty.Has e := by
  cases e <;> exact List.not_mem_nil

/-- Some edges are added, and no other edge changes. -/
def Gains (edges : List Edge) (s s' : Store) : Prop := ∀ e, s'.Has e ↔ s.Has e ∨ e ∈ edges

/-- One edge is removed, and no other edge changes. -/
def Loses (edge : Edge) (s s' : Store) : Prop := ∀ e, s'.Has e ↔ s.Has e ∧ e ≠ edge

section Entities

/-- Changes of entities leave the tables of the edges alone. -/
theorem gains_of_entities (hm : s'.memberships = s.memberships) (ht : s'.teamGrants = s.teamGrants)
    (hu : s'.userGrants = s.userGrants) (hl : s'.ldapMappings = s.ldapMappings)
    (ho : s'.oidcMappings = s.oidcMappings) : Gains [] s s' := by
  intro e
  cases e <;> simp only [Has, hm, ht, hu, hl, ho, List.not_mem_nil, or_false]

theorem gains_nil (s : Store) : Gains [] s s := gains_of_entities rfl rfl rfl rfl rfl

theorem addPermission_gains {name : String} {description : Option String} {p : Permission}
    (h : s.addPermission name description = .ok (p, s')) : Gains [] s s' := by
  obtain ⟨-, -, rfl⟩ := addPermission_ok h
  exact gains_of_entities rfl rfl rfl rfl rfl

theorem addTeam_gains {name : String} {t : Team} (h : s.addTeam name = .ok (t, s')) :
    Gains [] s s' := by
  obtain ⟨-, -, -, rfl⟩ := insertTeam_ok h
  exact gains_of_entities rfl rfl rfl rfl rfl

theorem renameTeam_gains {id : Uuid} {name : String} (h : s.renameTeam id name = .ok ((), s')) :
    Gains [] s s' := by
  obtain ⟨-, rfl⟩ := renameTeam_ok h
  exact gains_of_entities rfl rfl rfl rfl rfl

theorem addUser_gains {username : String} {profile : Profile} {u : User}
    (h : s.addUser username profile = .ok (u, s')) : Gains [] s s' := by
  obtain ⟨-, -, rfl⟩ := addUser_ok h
  exact gains_of_entities rfl rfl rfl rfl rfl

theorem replaceApiKey_gains {id : Uuid} {key : String}
    (h : s.replaceApiKey id key = .ok ((), s')) : Gains [] s s' := by
  obtain ⟨-, rfl⟩ := replaceApiKey_ok h
  exact gains_of_entities rfl rfl rfl rfl rfl

theorem addOidcGroup_gains {name : String} {g : OidcGroup}
    (h : s.addOidcGroup name = .ok (g, s')) : Gains [] s s' := by
  obtain ⟨-, -, rfl⟩ := addOidcGroup_ok h
  exact gains_of_entities rfl rfl rfl rfl rfl

theorem addApiKey_gains {key : String} {teams : List Uuid} {k : ApiKey}
    (h : s.addApiKey key teams = .ok (k, s')) :
    Gains (teams.map fun t => .member ⟨.apiKey, k.id, t⟩) s s' := by
  obtain ⟨-, -, hm⟩ := addApiKey_ok h
  rw [addMemberships_ok hm]
  intro e
  cases e <;> simp [Has, eq_comm]

end Entities

section Edges

theorem join_gains (s : Store) (row : Membership) : Gains [.member row] s (s.join row) := by
  intro e
  cases e with
  | member r => simp [Has, mem_join]
  | _ =>
    rw [join_rows]
    simp [Has]

theorem grantTeam_gains (s : Store) (row : TeamGrant) :
    Gains [.teamGrant row] s (s.grantTeam row) := by
  intro e
  cases e with
  | teamGrant r => simp [Has, mem_grantTeam]
  | _ =>
    rw [grantTeam_rows]
    simp [Has]

theorem grantUser_gains (s : Store) (row : UserGrant) :
    Gains [.userGrant row] s (s.grantUser row) := by
  intro e
  cases e with
  | userGrant r => simp [Has, mem_grantUser]
  | _ =>
    rw [grantUser_rows]
    simp [Has]

theorem mapLdap_gains (s : Store) (team : Uuid) (dn : String) :
    Gains [.ldap ⟨team, dn⟩] s (s.mapLdap team dn) := by
  intro e
  cases e with
  | ldap r => simp [Has, mem_mapLdap]
  | _ =>
    rw [mapLdap_rows]
    simp [Has]

theorem mapOidc_gains (s : Store) (team group : Uuid) :
    Gains [.oidc ⟨team, group⟩] s (s.mapOidc team group) := by
  intro e
  cases e with
  | oidc r => simp [Has, mem_mapOidc]
  | _ =>
    rw [mapOidc_rows]
    simp [Has]

theorem leave_loses (s : Store) (row : Membership) : Loses (.member row) s (s.leave row) :=
  fun e => by cases e <;> simp [Has, leave]

theorem revokeTeam_loses (s : Store) (row : TeamGrant) :
    Loses (.teamGrant row) s (s.revokeTeam row) :=
  fun e => by cases e <;> simp [Has, revokeTeam]

theorem unmapLdap_loses (s : Store) (team : Uuid) (dn : String) :
    Loses (.ldap ⟨team, dn⟩) s (s.unmapLdap team dn) :=
  fun e => by cases e <;> simp [Has, unmapLdap]

theorem unmapOidc_loses (s : Store) (team group : Uuid) :
    Loses (.oidc ⟨team, group⟩) s (s.unmapOidc team group) :=
  fun e => by cases e <;> simp [Has, unmapOidc]

end Edges

end Store

end TeamAccess
