import TeamAccess.Proofs.Authorization.Grant

/-! # Mappings and memberships as relations

A group of a source is mapped to a team by the rows of that source only. Memberships are changed
edge by edge; a run of such changes removes or adds exactly the edges that it names, and leaves all
others in their places.
-/

namespace TeamAccess

/-- The edge between a user and a team. -/
def User.edge (u : User) (t : Team) : Membership := ⟨.user u.kind, u.id, t.id⟩

namespace Store

variable {s : Store} {source : GroupSource} {group : String} {team : Uuid} {t : Team}

section Mappings

/-- A group of a source is mapped to a team. -/
def Mapped (s : Store) (group : String) (team : Uuid) : GroupSource → Prop
  | .ldap => ⟨team, group⟩ ∈ s.ldapMappings
  | .oidc => ∃ g ∈ s.oidcGroups, g.name = group ∧ ⟨team, g.id⟩ ∈ s.oidcMappings

/-- The groups of a source that reach a team, sorted. -/
def groupsFor (s : Store) (team : Uuid) : GroupSource → List String
  | .ldap => s.dnsForTeam team
  | .oidc => s.oidcNamesForTeam team

/-- The stored teams that a group of a source reaches, by name. -/
def teamsFor (s : Store) (group : String) : GroupSource → List Team
  | .ldap => s.teamsForDn group
  | .oidc => (s.oidcGroup? group).elim [] fun g => s.teamsForOidcGroup g.id

theorem mem_groupsFor : group ∈ s.groupsFor team source ↔ s.Mapped group team source := by
  cases source with
  | ldap =>
    simp only [groupsFor, dnsForTeam, mem_sortedBy, List.mem_map, List.mem_filter,
      decide_eq_true_eq, Mapped]
    constructor
    · rintro ⟨⟨_, _⟩, ⟨hm, rfl⟩, rfl⟩
      exact hm
    · exact fun hm => ⟨_, ⟨hm, rfl⟩, rfl⟩
  | oidc =>
    simp only [groupsFor, oidcNamesForTeam, mem_sortedBy, List.mem_map, List.mem_filter,
      decide_eq_true_eq, Mapped]
    constructor
    · rintro ⟨g, ⟨hg, hm⟩, hn⟩
      exact ⟨g, hg, hn, hm⟩
    · rintro ⟨g, hg, hn, hm⟩
      exact ⟨g, ⟨hg, hm⟩, hn⟩

theorem mem_teamsFor (h : s.Distinct) :
    t ∈ s.teamsFor group source ↔ t ∈ s.teams ∧ s.Mapped group t.id source := by
  cases source with
  | ldap => simp [teamsFor, teamsForDn, Mapped]
  | oidc =>
    constructor
    · intro ht
      cases hg : s.oidcGroup? group with
      | none => simp [teamsFor, hg] at ht
      | some g =>
        obtain ⟨hm, hn⟩ := h.oidcGroup?_eq_some_iff.mp hg
        obtain ⟨ht, hr⟩ : t ∈ s.teams ∧ ⟨t.id, g.id⟩ ∈ s.oidcMappings := by
          simpa [teamsFor, hg, teamsForOidcGroup] using ht
        exact ⟨ht, g, hm, hn, hr⟩
    · rintro ⟨ht, g, hm, hn, hr⟩
      simp [teamsFor, h.oidcGroup?_eq_some_iff.mpr ⟨hm, hn⟩, teamsForOidcGroup, ht, hr]

end Mappings

section Memberships

variable {edges m : List Membership} {e : Membership}

/-- Rows together with some edges, each added at the end unless it is there. -/
def joined (m edges : List Membership) : List Membership :=
  edges.foldl (fun m e => if e ∈ m then m else m ++ [e]) m

theorem mem_joined : e ∈ joined m edges ↔ e ∈ m ∨ e ∈ edges := by
  unfold joined
  induction edges generalizing m with
  | nil => simp
  | cons f edges ih =>
    rw [List.foldl_cons, ih]
    by_cases hf : f ∈ m
    · rw [if_pos hf, List.mem_cons]
      constructor
      · rintro (h | h)
        · exact .inl h
        · exact .inr (.inr h)
      · rintro (h | rfl | h)
        · exact .inl h
        · exact .inl hf
        · exact .inr h
    · rw [if_neg hf, List.mem_append, List.mem_singleton, List.mem_cons, or_assoc]

/-- Adding edges leaves the rows that they are not among in their places. -/
theorem filter_joined {p : Membership → Bool} (h : ∀ e ∈ edges, p e = false) :
    (joined m edges).filter p = m.filter p := by
  unfold joined
  induction edges generalizing m with
  | nil => rfl
  | cons f edges ih =>
    rw [List.foldl_cons, ih fun e he => h e (by simp [he])]
    by_cases hf : f ∈ m
    · rw [if_pos hf]
    · rw [if_neg hf, List.filter_append]
      simp [h f (by simp)]

theorem join_eq_joined (s : Store) (e : Membership) :
    s.join e = { s with memberships := joined s.memberships [e] } := by
  unfold join joined
  by_cases he : e ∈ s.memberships <;> simp [he]

theorem foldl_join (s : Store) (edges : List Membership) :
    edges.foldl join s = { s with memberships := joined s.memberships edges } := by
  induction edges generalizing s with
  | nil => rfl
  | cons e edges ih => rw [List.foldl_cons, ih, join_eq_joined]; rfl

theorem foldl_leave (s : Store) (edges : List Membership) :
    edges.foldl leave s = { s with memberships := s.memberships.filter (· ∉ edges) } := by
  induction edges generalizing s with
  | nil => simp
  | cons e edges ih =>
    rw [List.foldl_cons, ih]
    simp [leave, List.filter_filter, Bool.and_comm]

theorem join_of_mem (h : e ∈ s.memberships) : s.join e = s := if_pos h

theorem filter_ne_of_not_mem {α : Type} [DecidableEq α] {xs : List α} {a : α} (h : a ∉ xs) :
    xs.filter (· ≠ a) = xs := by
  rw [List.filter_eq_self]
  intro b hb
  rw [decide_eq_true_eq]
  rintro rfl
  exact h hb

theorem leave_of_not_mem (h : e ∉ s.memberships) : s.leave e = s := by
  rw [leave, filter_ne_of_not_mem h]

theorem revokeTeam_of_not_mem {grant : TeamGrant} (h : grant ∉ s.teamGrants) :
    s.revokeTeam grant = s := by
  rw [revokeTeam, filter_ne_of_not_mem h]

/-- A principal read from the store belongs to a stored team if their edge is there. -/
theorem any_teamsOf {kind : PrincipalKind} {id : Uuid} (ht : t ∈ s.teams) :
    ((s.teamsOf kind id).any fun t' => t'.id = t.id) =
      decide (⟨kind, id, t.id⟩ ∈ s.memberships) := by
  rw [Bool.eq_iff_iff, List.any_eq_true, decide_eq_true_eq]
  constructor
  · rintro ⟨t', ht', he⟩
    rw [decide_eq_true_eq] at he
    exact he ▸ (mem_teamsOf.mp ht').2
  · exact fun hm => ⟨t, mem_teamsOf.mpr ⟨ht, hm⟩, by simp⟩

end Memberships

end Store

end TeamAccess
