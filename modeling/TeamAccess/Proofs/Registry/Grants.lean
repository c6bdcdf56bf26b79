import TeamAccess.Proofs.Reachable
import TeamAccess.Proofs.Registry.Writes
import TeamAccess.Proofs.Service.Membership

/-! # What the report of a grant is worth

Granting and revoking look at the permissions of the object that is handed in. If the session tracks
the object, these are the stored ones, and the report is true of the store. Any other object is
changed in memory only, even if it carries the identifier of a stored team or user: a grant reports
a change that nobody stores, a revocation reports none and leaves the grant where it is.
-/

namespace TeamAccess

open TeamAccess.Action

/-- A change of what a team or a user is granted, by the object that is handed in for either. -/
inductive GrantCall where
  | toTeam (team : TeamHandle)
  | fromTeam (team : TeamHandle)
  | toUser (kind : UserKind) (id : Option Uuid) (name : String) (tracked : Bool)
  deriving DecidableEq, Repr

namespace GrantCall

/-- Makes the call; the answer tells whether it reports a change. -/
def act (p : Permission) : GrantCall → Action Bool
  | .toTeam team => Permissions.grantToTeam team p
  | .fromTeam team => Permissions.revokeFromTeam team p
  | .toUser kind id name tracked => Permissions.grantToUser ⟨.user kind, id, name, tracked⟩ p

/-- Whether the session tracks the object; what it tracks has an identifier. -/
def isTracked : GrantCall → Bool
  | .toTeam team | .fromTeam team => team.id.isSome && team.tracked
  | .toUser _ id _ tracked => id.isSome && tracked

/-- Whether the call adds a grant. -/
def adds : GrantCall → Bool
  | .toTeam _ | .toUser .. => true
  | .fromTeam _ => false

/-- Whether a store grants a permission to the team or user with the identifier of the object. -/
def isGranted (s : Store) (p : Permission) : GrantCall → Bool
  | .toTeam team | .fromTeam team => team.id.any (s.teamHolds · p.name)
  | .toUser kind id _ _ => id.any (s.userHolds kind · p.name)

/-- Whether a store is as the call is to leave it. -/
def isDone (s : Store) (p : Permission) (call : GrantCall) : Bool :=
  call.isGranted s p == call.adds

end GrantCall

namespace Store

variable {s : Store} {p : Permission}

/-- A stored permission is the only one of its name. -/
theorem Distinct.any_permission (h : s.Distinct) (hp : p ∈ s.permissions) (q : Uuid → Prop)
    [DecidablePred q] :
    (s.permissions.any fun r => r.name = p.name ∧ q r.id) = decide (q p.id) := by
  rw [Bool.eq_iff_iff, List.any_eq_true, decide_eq_true_eq]
  constructor
  · rintro ⟨r, hr, he⟩
    obtain ⟨hn, held⟩ := of_decide_eq_true he
    exact List.inj_on_of_nodup_map h.permissionNames hr hp hn ▸ held
  · exact fun held => ⟨p, hp, decide_eq_true ⟨rfl, held⟩⟩

theorem Distinct.teamHolds_name (h : s.Distinct) (hp : p ∈ s.permissions) (team : Uuid) :
    s.teamHolds team p.name = decide (⟨team, p.id⟩ ∈ s.teamGrants) :=
  h.any_permission hp fun id => (⟨team, id⟩ : TeamGrant) ∈ s.teamGrants

theorem Distinct.userHolds_name (h : s.Distinct) (hp : p ∈ s.permissions) (kind : UserKind)
    (user : Uuid) : s.userHolds kind user p.name = decide (⟨kind, user, p.id⟩ ∈ s.userGrants) :=
  h.any_permission hp fun id => (⟨kind, user, id⟩ : UserGrant) ∈ s.userGrants

theorem mem_revokeTeam {grant g : TeamGrant} :
    g ∈ (s.revokeTeam grant).teamGrants ↔ g ∈ s.teamGrants ∧ g ≠ grant := by
  simp [revokeTeam]

end Store

namespace GrantCall

variable {s : Store} {p : Permission} {call : GrantCall}

section Done

variable (hd : s.Distinct) (hp : p ∈ s.permissions) (id : Uuid) (name : String) (tracked : Bool)

include hd hp

theorem isDone_toTeam : (toTeam ⟨some id, name, tracked⟩).isDone s p =
    decide (⟨id, p.id⟩ ∈ s.teamGrants) := by
  simp [isDone, isGranted, adds, hd.teamHolds_name hp]

theorem isDone_fromTeam : (fromTeam ⟨some id, name, tracked⟩).isDone s p =
    !decide (⟨id, p.id⟩ ∈ s.teamGrants) := by
  simp [isDone, isGranted, adds, hd.teamHolds_name hp]

theorem isDone_toUser (kind : UserKind) : (toUser kind (some id) name tracked).isDone s p =
    decide (⟨kind, id, p.id⟩ ∈ s.userGrants) := by
  simp [isDone, isGranted, adds, hd.userHolds_name hp]

end Done

/-- A call about an object that the session tracks does what it is to do, and reports whether it had
to. -/
theorem act_tracked (hm : s.missing = []) (hd : s.Distinct) (hp : p ∈ s.permissions)
    (ht : call.isTracked = true) :
    ∃ s', Writes s (call.act p) (!call.isDone s p) s' ∧ call.isDone s' p = true := by
  cases call with
  | toTeam team =>
    obtain ⟨_ | id, name, _ | _⟩ := team <;> cases ht
    have stored : p ∈ (s.grantTeam ⟨id, p.id⟩).permissions := by rwa [Store.grantTeam_rows]
    refine ⟨s.grantTeam ⟨id, p.id⟩, ?_, ?_⟩
    · rw [isDone_toTeam hd hp]
      exact Permissions.grantToTeam_writes hm p ⟨id, name⟩
    · rw [isDone_toTeam (hd.grantTeam _) stored, decide_eq_true_eq, Store.mem_grantTeam]
      exact .inr rfl
  | fromTeam team =>
    obtain ⟨_ | id, name, _ | _⟩ := team <;> cases ht
    refine ⟨s.revokeTeam ⟨id, p.id⟩, ?_, ?_⟩
    · rw [isDone_fromTeam hd hp, Bool.not_not]
      exact Permissions.revokeFromTeam_writes hm p ⟨id, name⟩
    · have stored : p ∈ (s.revokeTeam ⟨id, p.id⟩).permissions := hp
      rw [isDone_fromTeam (hd.revokeTeam _) stored, Bool.not_eq_true', decide_eq_false_iff_not,
        Store.mem_revokeTeam]
      exact fun he => he.2 rfl
  | toUser kind id name tracked =>
    obtain _ | id := id <;> obtain _ | _ := tracked <;> cases ht
    obtain ⟨profile, rfl⟩ : ∃ profile : Profile, profile.kind = kind := by
      cases kind
      · exact ⟨.managed none none false, rfl⟩
      · exact ⟨.ldap none, rfl⟩
      · exact ⟨.oidc none none, rfl⟩
    have stored : p ∈ (s.grantUser ⟨profile.kind, id, p.id⟩).permissions := by
      rwa [Store.grantUser_rows]
    refine ⟨s.grantUser ⟨profile.kind, id, p.id⟩, ?_, ?_⟩
    · rw [isDone_toUser hd hp]
      exact Permissions.grantToUser_writes hm p ⟨id, name, profile⟩
    · rw [isDone_toUser (hd.grantUser _) stored, decide_eq_true_eq, Store.mem_grantUser]
      exact .inr rfl

/-- A call about any other object stores nothing; it reports a change if it is to add a grant. -/
theorem act_untracked (ht : call.isTracked = false) : Writes s (call.act p) call.adds s := by
  cases call with
  | toTeam team =>
    obtain ⟨_ | id, name, _ | _⟩ := team <;> cases ht
    all_goals exact (Writes.attempt _).bind (.pure true)
  | fromTeam team =>
    obtain ⟨_ | id, name, _ | _⟩ := team <;> cases ht
    all_goals exact (Writes.attempt _).bind (.pure false)
  | toUser kind id name tracked =>
    obtain _ | id := id <;> obtain _ | _ := tracked <;> cases ht
    all_goals exact (Writes.attempt _).bind (.pure true)

/-- Makes the call and commits. -/
def commit (p : Permission) (call : GrantCall) : Action Bool := do
  let reported ← call.act p
  Action.commit
  return reported

theorem commit_start {b : Bool} {s' : Store} (h : Writes s (call.act p) b s') :
    call.commit p (Session.start s) = .ok b (Session.start s') := by
  rw [commit, bind_ok (h _ rfl rfl), bind_ok (commit_calm rfl)]
  rfl

/-- What a grant or a revocation reports is true of the store that is committed exactly if the
session tracks the object that is handed in, or if there was nothing to do. For an object that is
tracked, the store is afterwards as it is to be, and a change is reported if there is one. For any
other object the store stays as it is, while every grant reports a change and no revocation does. -/
theorem report_true_iff {s : Store} (hs : Reachable s) (hc : s.isComplete = true) {p : Permission}
    (hp : p ∈ s.permissions) (call : GrantCall) :
    ∃ b σ, call.commit p (Session.start s) = .ok b σ ∧
      ((b = true → call.isDone σ.durable p = true) ∧ (b = false → call.isDone s p = true) ↔
        call.isTracked = true ∨ call.isDone s p = true) ∧
      (call.isTracked = true →
        call.isDone σ.durable p = true ∧ (b = true ↔ call.isDone s p = false)) ∧
      (call.isTracked = false → σ.durable = s ∧ b = call.adds) := by
  cases ht : call.isTracked with
  | true =>
    obtain ⟨s', writes, done⟩ := act_tracked (List.isEmpty_iff.mp hc) hs.distinct hp ht
    exact ⟨_, _, commit_start writes, iff_of_true ⟨fun _ => done, by simp⟩ (.inl rfl),
      fun _ => ⟨done, by simp⟩, nofun⟩
  | false =>
    refine ⟨_, _, commit_start (act_untracked ht), ?_, nofun, fun _ => ⟨rfl, rfl⟩⟩
    cases call.adds <;> simp [Session.start]

/-- The session tracks the team that is granted the permission: the grant is stored. -/
theorem report_true_iff_tracked :
    Reachable Sample.store ∧ Sample.store.isComplete = true ∧
      Sample.management ∈ Sample.store.permissions ∧
      ∃ b σ, (toTeam Sample.guests.handle).commit Sample.management (Session.start Sample.store) =
          .ok b σ ∧ b = true ∧
        σ.durable.teamHolds Sample.guests.id Sample.management.name = true := by
  have hp : Sample.management ∈ Sample.store.permissions := by decide
  obtain ⟨b, σ, hx, -, tracked, -⟩ :=
    report_true_iff Sample.reachable rfl hp (toTeam Sample.guests.handle)
  obtain ⟨done, changed⟩ := tracked rfl
  refine ⟨Sample.reachable, rfl, hp, b, σ, hx, changed.mpr (by decide), ?_⟩
  simpa [isDone, isGranted, adds, Team.handle] using done

/-- A copy that carries the identifier of a stored team is granted a permission: a change is
reported, and the team is not granted anything. -/
theorem copy_reports_unstored :
    Reachable Sample.store ∧ Sample.store.isComplete = true ∧
      Sample.management ∈ Sample.store.permissions ∧ Sample.guests ∈ Sample.store.teams ∧
      ∃ σ, (toTeam ⟨some Sample.guests.id, "guests", false⟩).commit Sample.management
          (Session.start Sample.store) = .ok true σ ∧
        σ.durable.teamHolds Sample.guests.id Sample.management.name = false :=
  ⟨Sample.reachable, rfl, by decide, by decide, _, rfl, by decide⟩

end GrantCall

end TeamAccess
