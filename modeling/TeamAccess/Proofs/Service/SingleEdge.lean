import TeamAccess.Proofs.Reachable
import TeamAccess.Proofs.Service.Membership

/-! # One edge at a time

Adding a member sets one edge and removing one clears it. Which edge is meant is decided by the
identifiers that are handed in, never by names. Whoever has no stored principal or, for adding, no
stored team gets a failure that changes nothing, and the two operations undo each other.
-/

namespace TeamAccess

open TeamAccess.Action

variable {s : Store} {p : PrincipalHandle} {t : TeamHandle} {e : Membership}

/-- A principal of the kind of the handle is stored under its identifier. -/
def PrincipalHandle.StoredIn (s : Store) (p : PrincipalHandle) : Prop :=
  ∃ id, p.id = some id ∧ s.HasPrincipal p.kind id

/-- A team is stored under the identifier of the handle. -/
def TeamHandle.StoredIn (s : Store) (t : TeamHandle) : Prop := ∃ id, t.id = some id ∧ s.HasTeam id

/-- The edge between a principal and a team, by their identifiers. -/
structure Membership.Joins (p : PrincipalHandle) (t : TeamHandle) (e : Membership) : Prop where
  kind : e.kind = p.kind
  principal : p.id = some e.principal
  team : t.id = some e.team

/-- There is only one edge between a principal that has been read and a team. -/
theorem Membership.Joins.eq_of_record? {r : PrincipalRecord} {team : Team} (he : e.Joins p t)
    (hr : s.record? p = some r) (hi : t.id = some team.id) : e = ⟨r.kind, r.id, team.id⟩ := by
  obtain ⟨kind, principal, id⟩ := e
  obtain ⟨hk, hpr, ht⟩ := he
  obtain rfl : kind = r.kind := hk.trans (Store.kind_of_record? hr)
  obtain rfl : principal = r.id := Option.some.inj (hpr.symm.trans (Store.id_of_record? hr))
  obtain rfl : id = team.id := Option.some.inj (ht.symm.trans hi)
  rfl

theorem exists_joins (hp : p.StoredIn s) (ht : t.StoredIn s) :
    ∃ e : Membership, e.Joins p t := by
  obtain ⟨id, hi, -⟩ := hp
  obtain ⟨team, ht, -⟩ := ht
  exact ⟨⟨p.kind, id, team⟩, rfl, hi, ht⟩

namespace Store

theorem record?_of_storedIn (h : p.StoredIn s) : ∃ r, s.record? p = some r := by
  obtain ⟨id, hi, hs⟩ := h
  exact record?_of_stored hi hs

theorem record?_of_not_storedIn (h : ¬ p.StoredIn s) : s.record? p = none :=
  record?_eq_none fun id hi hs => h ⟨id, hi, hs⟩

theorem teamById?_of_storedIn (h : t.StoredIn s) :
    ∃ team, t.id.bind s.teamById? = some team ∧ t.id = some team.id := by
  obtain ⟨_, hi, t', ht', rfl⟩ := h
  obtain ⟨team, hf, hid⟩ := teamById?_of_mem ht'
  exact ⟨team, by rw [hi]; exact hf, by rw [hi, hid]⟩

theorem teamById?_of_not_storedIn (h : ¬ t.StoredIn s) : t.id.bind s.teamById? = none := by
  refine Option.eq_none_iff_forall_ne_some.mpr fun team hb => ?_
  obtain ⟨id, hi, hf⟩ := Option.bind_eq_some_iff.mp hb
  have hid := List.find?_some hf
  exact h ⟨id, hi, team, List.mem_of_find?_eq_some hf, of_decide_eq_true hid⟩

theorem join_of_not_mem (h : e ∉ s.memberships) :
    s.join e = { s with memberships := s.memberships ++ [e] } := if_neg h

theorem leave_join (h : e ∉ s.memberships) : (s.join e).leave e = s := by
  rw [join_of_not_mem h, leave, List.filter_append, filter_ne_of_not_mem h]
  simp

/-- An edge that is removed and added again has only moved to the end. -/
theorem Distinct.filter_ne_append_perm (h : s.Distinct) (he : e ∈ s.memberships) :
    (s.memberships.filter (· ≠ e) ++ [e]).Perm s.memberships := by
  have hn : (s.memberships.filter (· ≠ e) ++ [e]).Nodup :=
    nodup_concat (h.memberships.filter _) (by simp)
  refine (List.perm_ext_iff_of_nodup hn h.memberships).mpr fun e' => ?_
  by_cases h' : e' = e <;> simp [h', he]

end Store

namespace MembershipService

/-- What is recorded about an edge. -/
abbrev notes (change : EdgeChange) (p : PrincipalHandle) (t : TeamHandle) : List Event :=
  [.membership change p.identifier p.kind t.name]

section

variable (hm : s.missing = [])

include hm

theorem add_rejects_principal (h : ¬ p.StoredIn s) : Rejects s (add p t) p.notFound := by
  have locked := Principals.lock_reads_none (Store.record?_of_not_storedIn h)
  refine .after hm (.attempt _) (.bind (.guarded (.bind ?_) nofun))
  exact .after hm (.attempt _) (.bind (.reads hm locked))

theorem remove_rejects_principal (h : ¬ p.StoredIn s) : Rejects s (remove p t) p.notFound := by
  have locked := Principals.lock_reads_none (Store.record?_of_not_storedIn h)
  refine .after hm (.attempt _) (.bind (.guarded (.bind ?_) nofun))
  exact .after hm (.attempt _) (.bind (.reads hm locked))

theorem add_rejects_team (hp : p.StoredIn s) (ht : ¬ t.StoredIn s) :
    Rejects s (add p t) t.notFound := by
  obtain ⟨r, hr⟩ := Store.record?_of_storedIn hp
  have missed : Reads s (Principals.target t) (.error t.notFound) :=
    (Principals.target_reads t).cast (by rw [Store.teamById?_of_not_storedIn ht]; rfl)
  refine .after hm (.attempt _) (.bind (.guarded (.bind ?_) nofun))
  exact .after hm (.attempt _) (.after hm (Principals.lock_reads hr) (.bind (.reads hm missed)))

/-- A team that is not stored has no members to remove. -/
theorem remove_unknown_team (hp : p.StoredIn s) (ht : ¬ t.StoredIn s) :
    Moves s (remove p t) false s (notes .unchanged p t) := by
  obtain ⟨r, hr⟩ := Store.record?_of_storedIn hp
  have looked : Reads s (Principals.removeFromTeam p t) (.ok false) := by
    refine (Reads.attempt _).bind ((Principals.lock_reads hr).bind ?_)
    cases hi : t.id with
    | none => exact .pure false
    | some id =>
      have absent : r.teams.any (·.id = id) = false := by
        rw [Store.teams_of_record? hr, List.any_eq_false]
        intro team hmem
        have stored := (Store.mem_teamsOf.mp hmem).1
        simpa using fun he => ht ⟨id, hi, team, stored, he⟩
      simp only [absent]
      exact .pure false
  intro keys events
  have calm : (Session.on s keys events).Calm := Session.on_calm hm
  rw [remove, bind_ok (attempt_calm calm _), bind_ok (committed_on (looked.calm_ok calm))]
  rfl

section Stored

variable (hp : p.StoredIn s) (ht : t.StoredIn s) (he : e.Joins p t)

include hp ht he

theorem add_moves_edge :
    Moves s (add p t) (!decide (e ∈ s.memberships)) (s.join e)
      (notes (if e ∈ s.memberships then .unchanged else .added) p t) := by
  obtain ⟨r, hr⟩ := Store.record?_of_storedIn hp
  obtain ⟨team, hf, hi⟩ := Store.teamById?_of_storedIn ht
  obtain rfl := he.eq_of_record? hr hi
  exact add_moves hm hr hf

theorem remove_moves_edge :
    Moves s (remove p t) (decide (e ∈ s.memberships)) (s.leave e)
      (notes (if e ∈ s.memberships then .removed else .unchanged) p t) := by
  obtain ⟨r, hr⟩ := Store.record?_of_storedIn hp
  obtain ⟨team, hf, hi⟩ := Store.teamById?_of_storedIn ht
  obtain rfl := he.eq_of_record? hr hi
  exact remove_moves hm hr hi (Store.mem_teams_of_bind hf)

/-- An edge that is absent can be added, and then be removed again. -/
theorem moves_of_absent (h : e ∉ s.memberships) :
    Moves s (add p t) true { s with memberships := s.memberships ++ [e] } (notes .added p t) ∧
    Moves s (remove p t) false s (notes .unchanged p t) ∧
    Moves { s with memberships := s.memberships ++ [e] } (remove p t) true s
      (notes .removed p t) := by
  refine ⟨?_, ?_, ?_⟩
  · exact (add_moves_edge hm hp ht he).cast (by simp [h]) (Store.join_of_not_mem h) (by simp [h])
  · exact (remove_moves_edge hm hp ht he).cast (by simp [h]) (Store.leave_of_not_mem h)
      (by simp [h])
  · have back := Store.leave_join h
    rw [Store.join_of_not_mem h] at back
    exact (remove_moves_edge (s := { s with memberships := s.memberships ++ [e] }) hm hp ht he).cast
      (by simp) back (by simp)

/-- An edge that is present can be removed, and then be added again. -/
theorem moves_of_present (h : e ∈ s.memberships) :
    Moves s (add p t) false s (notes .unchanged p t) ∧
    Moves s (remove p t) true { s with memberships := s.memberships.filter (· ≠ e) }
      (notes .removed p t) ∧
    Moves { s with memberships := s.memberships.filter (· ≠ e) } (add p t) true
      { s with memberships := s.memberships.filter (· ≠ e) ++ [e] } (notes .added p t) := by
  refine ⟨?_, ?_, ?_⟩
  · exact (add_moves_edge hm hp ht he).cast (by simp [h]) (Store.join_of_mem h) (by simp [h])
  · exact (remove_moves_edge hm hp ht he).cast (by simp [h]) rfl (by simp [h])
  · have gone : e ∉ s.memberships.filter (· ≠ e) := by simp
    exact (add_moves_edge (s := { s with memberships := s.memberships.filter (· ≠ e) }) hm hp ht
      he).cast (by simp) (Store.join_of_not_mem gone) (by simp)

end Stored

end

end MembershipService

end TeamAccess
