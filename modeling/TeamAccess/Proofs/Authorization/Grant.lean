import TeamAccess.Proofs.Registry.Reads
import TeamAccess.Proofs.Store.Distinct
import TeamAccess.Proofs.Store.Sorted

/-! # Who is granted what

A user is granted the permissions that it holds directly and those of its teams, an API key those of
its teams only. A handle stands for the stored user of its partition and username, whatever
identifier it carries, or for the stored API key of its identifier, whatever text it carries.
-/

namespace TeamAccess

namespace Store

variable {s : Store}

/-- A team is granted the permission of a name. -/
def TeamGranted (s : Store) (team : Uuid) (name : String) : Prop :=
  ∃ q ∈ s.permissions, q.name = name ∧ ⟨team, q.id⟩ ∈ s.teamGrants

/-- A stored team that a principal belongs to is granted the permission of a name. -/
def Inherits (s : Store) (kind : PrincipalKind) (id : Uuid) (name : String) : Prop :=
  ∃ t ∈ s.teams, ⟨kind, id, t.id⟩ ∈ s.memberships ∧ s.TeamGranted t.id name

/-- A user is granted the permission of a name directly. -/
def DirectlyGranted (s : Store) (u : User) (name : String) : Prop :=
  ∃ q ∈ s.permissions, q.name = name ∧ ⟨u.kind, u.id, q.id⟩ ∈ s.userGrants

/-- What a handle stands for is granted the permission of a name. -/
def Granted (s : Store) (p : PrincipalHandle) (name : String) : Prop :=
  match p.kind with
  | .user kind => ∃ u ∈ s.users, u.kind = kind ∧ u.username = p.name ∧
      (s.DirectlyGranted u name ∨ s.Inherits (.user kind) u.id name)
  | .apiKey => ∃ k ∈ s.apiKeys, p.id = some k.id ∧ s.Inherits .apiKey k.id name

theorem mem_teamsOf {kind : PrincipalKind} {id : Uuid} {t : Team} :
    t ∈ s.teamsOf kind id ↔ t ∈ s.teams ∧ ⟨kind, id, t.id⟩ ∈ s.memberships := by
  simp [teamsOf]

theorem teamHolds_iff {team : Uuid} {name : String} :
    s.teamHolds team name = true ↔ s.TeamGranted team name := by
  simp [teamHolds, TeamGranted]

theorem userHolds_iff {u : User} {name : String} :
    s.userHolds u.kind u.id name = true ↔ s.DirectlyGranted u name := by
  simp [userHolds, DirectlyGranted]

theorem inherits_iff {kind : PrincipalKind} {id : Uuid} {name : String} :
    s.Inherits kind id name ↔ ∃ t ∈ s.teamsOf kind id, s.teamHolds t.id name = true := by
  constructor
  · rintro ⟨t, ht, hm, hg⟩
    exact ⟨t, mem_teamsOf.mpr ⟨ht, hm⟩, teamHolds_iff.mpr hg⟩
  · rintro ⟨t, ht, hg⟩
    obtain ⟨ht, hm⟩ := mem_teamsOf.mp ht
    exact ⟨t, ht, hm, teamHolds_iff.mp hg⟩

theorem record?_of_userById? {u : User} (h : s.userById? u.kind u.id = some u) :
    s.record? u.handle = some (.user (s.userRecord u)) := by
  change (s.userById? u.kind u.id).map (PrincipalRecord.user ∘ s.userRecord) = _
  rw [h]
  rfl

/-- A stored user is found by the identifier that it carries. -/
theorem Distinct.record?_handle (h : s.Distinct) {u : User} (hu : u ∈ s.users) :
    s.record? u.handle = some (.user (s.userRecord u)) :=
  record?_of_userById? (h.userById?_eq_some_iff.mpr ⟨hu, rfl, rfl⟩)

theorem granted_user_iff (h : s.Distinct) {p : PrincipalHandle} {kind : UserKind} {name : String}
    (hp : p.kind = .user kind) :
    s.Granted p name ↔ ∃ u ∈ s.user? kind p.name,
      s.userHolds u.kind u.id name = true ∨
        ∃ t ∈ s.teamsOf (.user u.kind) u.id, s.teamHolds t.id name = true := by
  simp only [Granted, hp, userHolds_iff, ← inherits_iff]
  constructor
  · rintro ⟨u, hu, rfl, hn, hg⟩
    exact ⟨u, h.user?_eq_some_iff.mpr ⟨hu, rfl, hn⟩, hg⟩
  · rintro ⟨u, hu, hg⟩
    obtain ⟨hm, rfl, hn⟩ := h.user?_eq_some_iff.mp hu
    exact ⟨u, hm, rfl, hn, hg⟩

theorem granted_apiKey_iff (h : s.Distinct) {p : PrincipalHandle} {name : String}
    (hp : p.kind = .apiKey) :
    s.Granted p name ↔ ∃ r ∈ s.record? p, ∃ t ∈ r.teams, s.teamHolds t.id name = true := by
  simp only [Granted, hp, inherits_iff]
  constructor
  · rintro ⟨k, hk, hi, hg⟩
    have hf : s.apiKeyById? k.id = some k := h.apiKeyById?_eq_some_iff.mpr ⟨hk, rfl⟩
    exact ⟨.apiKey (s.keyRecord k), by simp [record?, recordById?, hp, hi, hf], hg⟩
  · rintro ⟨r, hr, hg⟩
    obtain ⟨k, hi, hk, rfl⟩ := record?_apiKey hp hr
    obtain ⟨hm, -⟩ := h.apiKeyById?_eq_some_iff.mp hk
    exact ⟨k, hm, hi, hg⟩

end Store

end TeamAccess
