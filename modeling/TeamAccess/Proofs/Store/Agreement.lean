import TeamAccess.Proofs.Registry.Reads
import TeamAccess.Proofs.Store.Distinct

/-! # Stores that agree on some principals

Memberships and direct grants belong to principals, all other rows to nobody. Two stores agree on
some principals if these own the same rows in both and nobody's rows are the same. What is read of a
principal is the same in stores that agree on it, and a change of one principal keeps the agreement
on every other one.
-/

namespace TeamAccess

/-- The principal that a membership belongs to. -/
def Membership.owner (e : Membership) : PrincipalKind × Uuid := (e.kind, e.principal)

/-- The user that a grant belongs to. -/
def UserGrant.owner (g : UserGrant) : PrincipalKind × Uuid := (.user g.kind, g.user)

namespace Store

variable {P Q : PrincipalKind × Uuid → Prop} {s t u : Store} {kind : PrincipalKind} {id : Uuid}
  {e : Membership} {g : UserGrant}

/-- Some principals own the same rows in two stores, and nobody's rows are the same. -/
structure Agree (P : PrincipalKind × Uuid → Prop) (s t : Store) : Prop where
  rows : t = { s with memberships := t.memberships, userGrants := t.userGrants }
  members : ∀ e : Membership, P e.owner → (e ∈ t.memberships ↔ e ∈ s.memberships)
  grants : ∀ g : UserGrant, P g.owner → (g ∈ t.userGrants ↔ g ∈ s.userGrants)

/-- Two stores hold the same rows; in what order a table holds them means nothing. -/
structure SameRows (s t : Store) : Prop where
  rows : t = { s with memberships := t.memberships, userGrants := t.userGrants }
  members : t.memberships.Perm s.memberships
  grants : t.userGrants.Perm s.userGrants

theorem SameRows.agree (h : SameRows s t) : Agree P s t :=
  ⟨h.rows, fun _ _ => h.members.mem_iff, fun _ _ => h.grants.mem_iff⟩

namespace Agree

theorem refl (P : PrincipalKind × Uuid → Prop) (s : Store) : Agree P s s :=
  ⟨rfl, fun _ _ => .rfl, fun _ _ => .rfl⟩

theorem symm (h : Agree P s t) : Agree P t s :=
  ⟨by rw [h.rows], fun e he => (h.members e he).symm, fun g hg => (h.grants g hg).symm⟩

theorem trans (h : Agree P s t) (h' : Agree P t u) : Agree P s u :=
  ⟨by rw [h'.rows, h.rows], fun e he => (h'.members e he).trans (h.members e he),
    fun g hg => (h'.grants g hg).trans (h.grants g hg)⟩

theorem imp (h : Agree P s t) (hPQ : ∀ w, Q w → P w) : Agree Q s t :=
  ⟨h.rows, fun e he => h.members e (hPQ _ he), fun g hg => h.grants g (hPQ _ hg)⟩

theorem or (h : Agree P s t) (h' : Agree Q s t) : Agree (fun w => P w ∨ Q w) s t :=
  ⟨h.rows, fun e he => he.elim (h.members e) (h'.members e),
    fun g hg => hg.elim (h.grants g) (h'.grants g)⟩

/-- Distinct stores that agree on everybody hold the same rows. -/
theorem sameRows (h : Agree P s t) (hP : ∀ w, P w) (hs : s.Distinct) (ht : t.Distinct) :
    SameRows s t :=
  ⟨h.rows,
    (List.perm_ext_iff_of_nodup ht.memberships hs.memberships).mpr fun e => h.members e (hP _),
    (List.perm_ext_iff_of_nodup ht.userGrants hs.userGrants).mpr fun g => h.grants g (hP _)⟩

section Reading

/-- What nobody's rows determine is the same. -/
theorem frozen {α : Type} (h : Agree P s t) (f : Store → α)
    (hf : ∀ s m g, f { s with memberships := m, userGrants := g } = f s) : f t = f s := by
  rw [h.rows, hf]

theorem teamsOf (h : Agree P s t) (hP : P (kind, id)) : t.teamsOf kind id = s.teamsOf kind id := by
  have teams : t.teams = s.teams := h.frozen (·.teams) fun _ _ _ => rfl
  unfold Store.teamsOf
  rw [teams]
  congr 1
  exact List.filter_congr fun t' _ => by simp only [h.members ⟨kind, id, t'.id⟩ hP]

theorem directPermissions {k : UserKind} (h : Agree P s t) (hP : P (.user k, id)) :
    t.directPermissions k id = s.directPermissions k id := by
  have permissions : t.permissions = s.permissions := h.frozen (·.permissions) fun _ _ _ => rfl
  unfold Store.directPermissions
  rw [permissions]
  congr 1
  exact List.filter_congr fun q _ => by simp only [h.grants ⟨k, id, q.id⟩ hP]

theorem userRecord {v : User} (h : Agree P s t) (hP : P (.user v.kind, v.id)) :
    t.userRecord v = s.userRecord v := by
  unfold Store.userRecord
  rw [h.teamsOf hP, h.directPermissions hP]

theorem keyRecord {k : ApiKey} (h : Agree P s t) (hP : P (.apiKey, k.id)) :
    t.keyRecord k = s.keyRecord k := by
  unfold Store.keyRecord
  rw [h.teamsOf hP]

/-- What is read of a principal by its identifier is the same where the stores agree on it. -/
theorem record? {p : PrincipalHandle} (h : Agree P s t) (hP : ∀ id ∈ p.id, P (p.kind, id)) :
    t.record? p = s.record? p := by
  unfold Store.record?
  refine Option.bind_congr fun id hi => ?_
  specialize hP id hi
  revert hP
  cases p.kind with
  | user k =>
    intro hP
    change (t.userById? k id).map (PrincipalRecord.user ∘ t.userRecord) =
      (s.userById? k id).map (PrincipalRecord.user ∘ s.userRecord)
    rw [h.frozen (·.userById? k id) fun _ _ _ => rfl]
    refine Option.map_congr fun v hv => congrArg PrincipalRecord.user (h.userRecord ?_)
    have found := List.find?_some hv
    obtain ⟨rfl, rfl⟩ := of_decide_eq_true found
    exact hP
  | apiKey =>
    intro hP
    change (t.apiKeyById? id).map (PrincipalRecord.apiKey ∘ t.keyRecord) =
      (s.apiKeyById? id).map (PrincipalRecord.apiKey ∘ s.keyRecord)
    rw [h.frozen (·.apiKeyById? id) fun _ _ _ => rfl]
    refine Option.map_congr fun k hk => congrArg PrincipalRecord.apiKey (h.keyRecord ?_)
    have found := List.find?_some hk
    obtain rfl := of_decide_eq_true found
    exact hP

end Reading

section Changes

/-- The same change of an edge keeps an agreement. -/
theorem join (h : Agree P s t) (e : Membership) : Agree P (s.join e) (t.join e) := by
  refine ⟨?_, fun e' he => ?_, fun g hg => ?_⟩
  · rw [join_rows s, join_rows t, h.rows]
  · rw [mem_join, mem_join, h.members e' he]
  · rw [join_rows s, join_rows t]
    exact h.grants g hg

theorem leave (h : Agree P s t) (e : Membership) : Agree P (s.leave e) (t.leave e) := by
  refine ⟨?_, fun e' he => ?_, h.grants⟩
  · unfold Store.leave
    rw [h.rows]
  · simp only [Store.leave, List.mem_filter, h.members e' he]

theorem grantUser (h : Agree P s t) (g : UserGrant) : Agree P (s.grantUser g) (t.grantUser g) := by
  refine ⟨?_, fun e he => ?_, fun g' hg => ?_⟩
  · rw [grantUser_rows s, grantUser_rows t, h.rows]
  · rw [grantUser_rows s, grantUser_rows t]
    exact h.members e he
  · rw [mem_grantUser, mem_grantUser, h.grants g' hg]

/-- A change of one principal's edge is none of the others' business. -/
theorem join_other (s : Store) (he : ¬ P e.owner) : Agree P s (s.join e) := by
  refine ⟨by unfold Store.join; split <;> rfl, fun e' he' => ?_, fun g _ => ?_⟩
  · rw [mem_join, or_iff_left]
    rintro rfl
    exact he he'
  · rw [join_rows]

theorem leave_other (s : Store) (he : ¬ P e.owner) : Agree P s (s.leave e) := by
  refine ⟨rfl, fun e' he' => ?_, fun _ _ => .rfl⟩
  have hne : e' ≠ e := by
    rintro rfl
    exact he he'
  simp [Store.leave, hne]

theorem grantUser_other (s : Store) (hg : ¬ P g.owner) : Agree P s (s.grantUser g) := by
  refine ⟨by unfold Store.grantUser; split <;> rfl, fun e _ => ?_, fun g' hg' => ?_⟩
  · rw [grantUser_rows]
  · rw [mem_grantUser, or_iff_left]
    rintro rfl
    exact hg hg'

end Changes

end Agree

end Store

end TeamAccess
