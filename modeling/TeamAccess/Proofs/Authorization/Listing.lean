import TeamAccess.Proofs.Authorization.Grant
import TeamAccess.Proofs.Authorization.Stage
import TeamAccess.Proofs.Reachable
import TeamAccess.Service.Evaluation

/-! # The listing of permissions

The listing of a principal's permissions goes over rows in the order of their names, the checks ask
the store about one name. Both describe the same permissions, and the listing has one order only.
-/

namespace TeamAccess

section Rows

variable {α : Type} {name : α → String} {rows xs : List α} {P : α → Prop}

/-- The rows with a property, in the strict order of their names. -/
structure ByName (name : α → String) (rows : List α) (P : α → Prop) (xs : List α) : Prop where
  ordered : xs.Pairwise fun a b => name a < name b
  mem : ∀ a, a ∈ xs ↔ a ∈ rows ∧ P a

theorem byName_nil (h : ∀ a, ¬ P a) : ByName name rows P [] :=
  ⟨.nil, fun a => by simp [h a]⟩

theorem byName_sortedBy [DecidablePred P] (h : (rows.map name).Nodup) :
    ByName name rows P (sortedBy name (rows.filter P)) :=
  ⟨sortedBy_pairwise_lt (Store.nodup_map_filter _ h), fun a => by simp⟩

end Rows

section Firsts

variable {p : Permission} {ps seen : List Permission} {name : String}

/-- The permissions of a list of which none before has the same name. -/
def firstsByName : List Permission → List Permission
  | [] => []
  | p :: ps => p :: (firstsByName ps).filter (·.name ≠ p.name)

theorem any_firstsByName :
    (firstsByName ps).any (·.name = name) = ps.any (·.name = name) := by
  induction ps with
  | nil => rfl
  | cons p ps ih =>
    rw [firstsByName, List.any_cons, List.any_cons, ← ih, List.any_filter]
    by_cases hp : p.name = name
    · simp [hp]
    · congr 2
      funext q
      by_cases hq : q.name = name
      · simp [hq, Ne.symm hp]
      · simp [hq]

/-- Collecting permissions unless their name is taken leaves the first of each name. -/
theorem foldl_distinct (ps seen : List Permission) :
    ps.foldl (fun seen p => if seen.any (·.name = p.name) then seen else seen ++ [p]) seen =
      seen ++ (firstsByName ps).filter fun q => !seen.any (·.name = q.name) := by
  induction ps generalizing seen with
  | nil => simp [firstsByName]
  | cons p ps ih =>
    rw [List.foldl_cons, ih, firstsByName]
    by_cases hp : seen.any (·.name = p.name)
    · rw [if_pos hp, List.filter_cons_of_neg (by simp [hp]), List.filter_filter]
      congr 1
      refine List.filter_congr fun q _ => ?_
      by_cases hq : q.name = p.name
      · simp [hq, hp]
      · simp [hq]
    · rw [if_neg hp, List.filter_cons_of_pos (by simp [hp]), List.filter_filter, List.append_assoc,
        List.singleton_append]
      congr 2
      refine List.filter_congr fun q _ => ?_
      rw [List.any_append, Bool.not_or]
      simp [eq_comm]

end Firsts

namespace Store

variable {s : Store} {kind : PrincipalKind} {id : Uuid} {name : String}

/-- A permission is granted to a principal without a team; API keys never hold one. -/
def GrantsDirectly (s : Store) (kind : PrincipalKind) (id : Uuid) (q : Permission) : Prop :=
  ∃ k, kind = .user k ∧ ⟨k, id, q.id⟩ ∈ s.userGrants

/-- The permissions that a principal holds directly, by name. -/
def directListing (s : Store) (kind : PrincipalKind) (id : Uuid) : List Permission :=
  kind.userKind?.elim [] (s.directPermissions · id)

theorem byName_directListing (h : s.Distinct) (kind : PrincipalKind) (id : Uuid) :
    ByName (·.name) s.permissions (s.GrantsDirectly kind id) (s.directListing kind id) := by
  cases kind with
  | user k =>
    have rows := byName_sortedBy (P := fun q => ⟨k, id, q.id⟩ ∈ s.userGrants) h.permissionNames
    refine ⟨rows.ordered, fun q => (rows.mem q).trans (and_congr_right fun _ => ?_)⟩
    exact ⟨fun hg => ⟨k, rfl, hg⟩, fun ⟨_, hk, hg⟩ => PrincipalKind.user.inj hk ▸ hg⟩
  | apiKey => exact byName_nil fun q hg => by simp [GrantsDirectly] at hg

theorem byName_teamsOf (h : s.Distinct) (kind : PrincipalKind) (id : Uuid) :
    ByName (·.name) s.teams (fun t => ⟨kind, id, t.id⟩ ∈ s.memberships) (s.teamsOf kind id) :=
  byName_sortedBy h.teamNames

theorem byName_teamPermissions (h : s.Distinct) (team : Uuid) :
    ByName (·.name) s.permissions (fun q => ⟨team, q.id⟩ ∈ s.teamGrants)
      (s.teamPermissions team) :=
  byName_sortedBy h.permissionNames

/-- The question about one name is answered as the listing of the direct permissions tells. -/
theorem any_directListing :
    (s.directListing kind id).any (·.name = name) =
      kind.userKind?.any (s.userHolds · id name) := by
  cases kind with
  | user k =>
    rw [Bool.eq_iff_iff]
    simp only [directListing, PrincipalKind.userKind?, directPermissions, userHolds,
      Option.elim_some, Option.any_some, List.any_eq_true, mem_sortedBy, List.mem_filter,
      decide_eq_true_eq, and_assoc]
    exact exists_congr fun q => and_congr_right fun _ => and_comm
  | apiKey => rfl

/-- The question about one name is answered as the listing of a team's permissions tells. -/
theorem any_teamPermissions :
    (s.teamPermissions id).any (·.name = name) = s.teamHolds id name := by
  rw [Bool.eq_iff_iff]
  simp only [teamPermissions, teamHolds, List.any_eq_true, mem_sortedBy, List.mem_filter,
    decide_eq_true_eq, and_assoc]
  exact exists_congr fun q => and_congr_right fun _ => and_comm

/-- The question about one name is answered as the whole listing tells. -/
theorem any_listing :
    (firstsByName (s.directListing kind id ++
        (s.teamsOf kind id).flatMap (s.teamPermissions ·.id))).any (·.name = name) =
      ((s.directListing kind id).any (·.name = name) ||
        (s.teamsOf kind id).any fun t => s.teamHolds t.id name) := by
  rw [any_firstsByName, List.any_append, List.any_flatMap]
  simp only [any_teamPermissions]

section Unknown

variable (unknown : ∀ q ∈ s.permissions, q.name ≠ name)

include unknown

theorem any_directListing_of_unknown :
    (s.directListing kind id).any (·.name = name) = false := by
  refine List.any_eq_false.mpr fun q hq => ?_
  have stored : q ∈ s.permissions := by
    cases kind with
    | user k => exact List.mem_of_mem_filter (mem_sortedBy.mp hq)
    | apiKey => cases hq
  simpa using unknown q stored

theorem teamHolds_of_unknown : s.teamHolds id name = false := by
  refine List.any_eq_false.mpr fun q hq => ?_
  simpa using fun hn => absurd hn (unknown q hq)

end Unknown

end Store

namespace Evaluation

open TeamAccess.Action

theorem distinct_eq_firstsByName (ps : List Permission) : distinct ps = firstsByName ps := by
  rw [distinct, foldl_distinct]
  simp

section Answers

variable {st : Store} {σ : Session} {p : PrincipalHandle} {r : PrincipalRecord}

theorem someTeamHas_reads (name : String) (teams : List Team) :
    Reads st (someTeamHas name teams) (.ok (teams.any fun t => st.teamHolds t.id name)) := by
  induction teams with
  | nil => exact .pure false
  | cons team teams ih =>
    refine .bind ⟨_, Permissions.teamHas_traces team.id name⟩ ?_
    rw [List.any_cons]
    cases st.teamHolds team.id name with
    | true => exact .pure true
    | false => exact ih

/-- A question about a stored principal is answered from its record. -/
theorem guarded_reload_ok {α : Type} {x : PrincipalRecord → Action α} {a : α} (hσ : σ.Calm)
    (hr : σ.current.record? p = some r) (hx : Reads σ.current (x r) (.ok a)) :
    guarded (Principals.reload p >>= x) σ = .ok a σ := by
  have reloaded : Reads σ.current (Principals.reload p) (.ok r) :=
    .cast ⟨_, Principals.reload_traces p⟩ (by rw [hr]; rfl)
  exact guarded_ok ((reloaded.bind hx).calm_ok hσ)

/-- A question about a principal that is not stored fails. -/
theorem guarded_reload_error {α : Type} (x : PrincipalRecord → Action α) (hσ : σ.Calm)
    (hr : σ.current.record? p = none) :
    guarded (Principals.reload p >>= x) σ = .error p.notFound σ := by
  have missing : Reads σ.current (Principals.reload p) (.error p.notFound) :=
    .cast ⟨_, Principals.reload_traces p⟩ (by rw [hr]; rfl)
  rw [guarded, tryCatch_apply, (missing.bind_fails (g := x)).calm hσ rfl]
  rfl

theorem userHas_ok (hσ : σ.Calm) (hr : σ.current.record? p = some r) (name : String)
    (includeTeams : Bool) :
    userHas p name includeTeams σ =
      .ok ((σ.current.directListing r.kind r.id).any (·.name = name) ||
        includeTeams && r.teams.any fun t => σ.current.teamHolds t.id name) σ := by
  rw [Store.any_directListing]
  refine guarded_reload_ok hσ hr (.bind (Permissions.directlyHas_reads r.kind r.id name) ?_)
  cases r.kind.userKind?.any (σ.current.userHolds · r.id name) with
  | true => exact .pure true
  | false =>
    cases includeTeams with
    | true => exact someTeamHas_reads name r.teams
    | false => exact .pure false

theorem keyHas_ok (hσ : σ.Calm) (hr : σ.current.record? p = some r) (name : String) :
    keyHas p name σ = .ok (r.teams.any fun t => σ.current.teamHolds t.id name) σ :=
  guarded_reload_ok hσ hr (someTeamHas_reads name r.teams)

theorem effective_ok (hσ : σ.Calm) (hr : σ.current.record? p = some r) :
    effective p σ = .ok (firstsByName (σ.current.directListing r.kind r.id ++
      r.teams.flatMap (σ.current.teamPermissions ·.id))) σ := by
  rw [← distinct_eq_firstsByName, List.flatMap_def]
  refine guarded_reload_ok hσ hr (.bind (Permissions.directFor_reads r.kind r.id) ?_)
  exact .bind (.mapM fun t _ => Permissions.forTeam_reads t.id) (.pure _)

end Answers

/-- What a principal holds is listed in one order: the direct permissions by name, then those of
each of its teams by name, each name at its first place only. The checks say of every name whether
it is in the list. About a principal that is not stored there is no answer. -/
theorem effective_agrees_with_checks {σ : Session} (hσ : σ.Calm) (hs : Reachable σ.current)
    (p : PrincipalHandle) :
    (∀ id, p.id = some id → σ.current.HasPrincipal p.kind id →
      ∃ direct teams held listing,
        ByName (·.name) σ.current.permissions (σ.current.GrantsDirectly p.kind id) direct ∧
        ByName (·.name) σ.current.teams (fun t => ⟨p.kind, id, t.id⟩ ∈ σ.current.memberships)
          teams ∧
        (∀ t : Team, ByName (·.name) σ.current.permissions
          (fun q => ⟨t.id, q.id⟩ ∈ σ.current.teamGrants) (held t)) ∧
        listing = firstsByName (direct ++ teams.flatMap held) ∧
        effective p σ = .ok listing σ ∧
        ∀ name,
          userHas p name true σ = .ok (listing.any (·.name = name)) σ ∧
          (p.kind = .apiKey → keyHas p name σ = .ok (listing.any (·.name = name)) σ) ∧
          userHas p name false σ = .ok (direct.any (·.name = name)) σ ∧
          ((∀ q ∈ σ.current.permissions, q.name ≠ name) → ∀ includeTeams,
            userHas p name includeTeams σ = .ok false σ ∧ keyHas p name σ = .ok false σ)) ∧
    ((∀ id, p.id = some id → ¬ σ.current.HasPrincipal p.kind id) →
      effective p σ = .error p.notFound σ ∧ ∀ name,
        keyHas p name σ = .error p.notFound σ ∧
        ∀ includeTeams, userHas p name includeTeams σ = .error p.notFound σ) := by
  have distinct := hs.distinct
  constructor
  · intro id hi stored
    obtain ⟨r, hr⟩ := Store.record?_of_stored hi stored
    have hk := Store.kind_of_record? hr
    obtain rfl : r.id = id := Option.some.inj ((Store.id_of_record? hr).symm.trans hi)
    have teams := Store.teams_of_record? hr
    rw [hk]
    refine ⟨σ.current.directListing r.kind r.id, σ.current.teamsOf r.kind r.id,
      (σ.current.teamPermissions ·.id), _, Store.byName_directListing distinct _ _,
      Store.byName_teamsOf distinct _ _, fun t => Store.byName_teamPermissions distinct _,
      rfl, teams ▸ effective_ok hσ hr, fun name => ⟨?_, fun ha => ?_, ?_, fun unknown => ?_⟩⟩
    · rw [userHas_ok hσ hr, Store.any_listing, Bool.true_and, teams]
    · have nothing : σ.current.directListing r.kind r.id = [] := by rw [ha]; rfl
      rw [keyHas_ok hσ hr, Store.any_listing, nothing, List.any_nil, Bool.false_or, teams]
    · rw [userHas_ok hσ hr, Bool.false_and, Bool.or_false]
    · intro includeTeams
      rw [userHas_ok hσ hr, keyHas_ok hσ hr, Store.any_directListing_of_unknown unknown]
      simp [Store.teamHolds_of_unknown unknown]
  · intro missing
    have hr := Store.record?_eq_none missing
    exact ⟨guarded_reload_error _ hσ hr, fun name => ⟨guarded_reload_error _ hσ hr,
      fun includeTeams => guarded_reload_error _ hσ hr⟩⟩

/-- The key of the small store holds what its listing tells, and a key that is not stored is told
nothing. -/
theorem effective_agrees_with_checks_key :
    let σ := Session.start Sample.store
    σ.Calm ∧ Reachable σ.current ∧ σ.current.HasPrincipal .apiKey Sample.key.id ∧
      (∃ listing, effective Sample.key.handle σ = .ok listing σ ∧
        keyHas Sample.key.handle Bootstrap.accessManagement σ =
          .ok (listing.any (·.name = Bootstrap.accessManagement)) σ) ∧
      (∀ id, Sample.guestKey.handle.id = some id → ¬ σ.current.HasPrincipal .apiKey id) ∧
      effective Sample.guestKey.handle σ = .error Sample.guestKey.handle.notFound σ := by
  intro σ
  have calm : σ.Calm := ⟨rfl, rfl⟩
  have stored : σ.current.HasPrincipal .apiKey Sample.key.id := ⟨Sample.key, by decide, rfl⟩
  have missing : ∀ id, Sample.guestKey.handle.id = some id →
      ¬ σ.current.HasPrincipal .apiKey id := by
    rintro _ ⟨⟩ ⟨k, hk, hid⟩
    have others : ∀ k ∈ Sample.store.apiKeys, k.id ≠ Sample.guestKey.id := by decide
    exact others k hk hid
  obtain ⟨_, _, _, listing, -, -, -, -, listed, checks⟩ :=
    (effective_agrees_with_checks calm Sample.reachable Sample.key.handle).1 _ rfl stored
  exact ⟨calm, Sample.reachable, stored, ⟨listing, listed, (checks _).2.1 rfl⟩, missing,
    ((effective_agrees_with_checks calm Sample.reachable Sample.guestKey.handle).2 missing).1⟩

end Evaluation

end TeamAccess
