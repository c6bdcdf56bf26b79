import TeamAccess.Proofs.Authorization.Decision
import TeamAccess.Proofs.Credential
import TeamAccess.Proofs.Http.Keeps

/-! # The administration gate

When nothing fails, the gate of the administration lets through exactly the callers whose stored
principal is granted the permission to administer. Who names nobody is refused with 401, everybody
else with 403, and a refusal changes nothing.
-/

namespace TeamAccess

open TeamAccess.Action

namespace Store

variable {s : Store}

/-- The stored principal that a caller names is granted the permission of a name. -/
def GrantedTo (s : Store) (name : String) : CallerRef → Prop
  | ⟨.apiKey, key⟩ => ∃ k ∈ s.apiKeys, k.key = key ∧ s.Inherits .apiKey k.id name
  | ⟨.user kind, username⟩ => ∃ u ∈ s.users, u.kind = kind ∧ u.username = username ∧
      (s.DirectlyGranted u name ∨ s.Inherits (.user kind) u.id name)

/-- A caller is granted what the principal that it resolves to is granted. -/
theorem grantedTo_iff (h : s.Distinct) {name : String} {ref : CallerRef} :
    s.GrantedTo name ref ↔
      ∃ record ∈ s.resolve? ref.kind ref.identifier, s.Granted record.handle name := by
  obtain ⟨kind | _, identifier⟩ := ref
  · constructor
    · rintro ⟨u, hu, rfl, rfl, hg⟩
      have hf : s.user? u.kind u.username = some u := h.user?_eq_some_iff.mpr ⟨hu, rfl, rfl⟩
      exact ⟨.user (s.userRecord u), by simp [resolve?, hf], u, hu, rfl, rfl, hg⟩
    · rintro ⟨record, hr, hg⟩
      obtain ⟨u, hf, rfl⟩ := Option.map_eq_some_iff.mp hr
      obtain ⟨hu, rfl, rfl⟩ := h.user?_eq_some_iff.mp hf
      obtain ⟨v, hv, hk, hn, hg⟩ := hg
      exact ⟨v, hv, hk, hn, hg⟩
  · constructor
    · rintro ⟨k, hk, rfl, hg⟩
      have hf : s.apiKey? k.key = some k := h.apiKey?_eq_some_iff.mpr ⟨hk, rfl⟩
      exact ⟨.apiKey (s.keyRecord k), by simp [resolve?, hf], k, hk, rfl, hg⟩
    · rintro ⟨record, hr, hg⟩
      obtain ⟨k, hf, rfl⟩ := Option.map_eq_some_iff.mp hr
      obtain ⟨hk, rfl⟩ := h.apiKey?_eq_some_iff.mp hf
      obtain ⟨k', hk', hi, hg⟩ := hg
      obtain rfl : k = k' := List.inj_on_of_nodup_map h.keyIds hk hk' (Option.some.inj hi)
      exact ⟨k, hk, rfl, hg⟩

end Store

namespace Http

namespace Gate

variable {settings : Settings} {request : Request} {s : Session} {ref : CallerRef}

/-- The credentials of a request name a caller. -/
def Names (settings : Settings) (request : Request) (ref : CallerRef) : Prop :=
  ref.NamedBy settings.tokenConfig request.now request.bearer? request.apiKey?

theorem caller_of_names (h : Names settings request ref) (s : Session) :
    caller settings request s = .ok ref s := by
  simp [caller, CallerRef.ofCredentials_eq_ok_iff.mpr h]

theorem caller_of_nobody (hu : settings.tokenConfig.Usable)
    (h : ∀ ref, ¬ Names settings request ref) (s : Session) :
    ∃ detail, caller settings request s = .error (.refused 401 detail) s := by
  cases hc : CallerRef.ofCredentials settings.tokenConfig request.now request.bearer?
      request.apiKey? with
  | ok ref => exact absurd (CallerRef.ofCredentials_eq_ok_iff.mp hc) (h ref)
  | error e =>
    cases e with
    | key fault => exact absurd hc (CallerRef.ofCredentials_ne_key hu fault)
    | _ => simp [caller, hc]

theorem principal?_calm (hs : s.Calm) (ref : CallerRef) :
    principal? ref s = .ok (s.current.resolve? ref.kind ref.identifier) s := by
  have hr := (@Principals.resolve?_reads s.current ref.kind ref.identifier).calm_ok hs
  simp [principal?, tryCatch_apply, guarded_ok hr]

theorem requireAdministrator_allows (hs : s.Calm) (hc : s.durable = s.current)
    (hd : s.current.Distinct) (hn : Names settings request ref)
    (hg : s.current.GrantedTo Bootstrap.accessManagement ref) :
    ∃ record ∈ s.current.resolve? ref.kind ref.identifier,
      requireAdministrator settings request s = .ok record s := by
  obtain ⟨record, hr, hg⟩ := (Store.grantedTo_iff hd).mp hg
  refine ⟨record, hr, ?_⟩
  have ha := (Decision.authorize_calm hs hc hd record.handle [Bootstrap.accessManagement]).1
    ⟨_, by simp, hg⟩
  rw [Option.mem_def] at hr
  unfold requireAdministrator
  rw [bind_ok (caller_of_names hn s), bind_ok (principal?_calm hs ref), hr]
  exact bind_ok ha

theorem requireAdministrator_forbids (hs : s.Calm) (hc : s.durable = s.current)
    (hd : s.current.Distinct) (hn : Names settings request ref)
    (hg : ¬ s.current.GrantedTo Bootstrap.accessManagement ref) :
    ∃ s', requireAdministrator settings request s = .error forbidden s' ∧
      s'.durable = s.durable ∧ s'.keys = s.keys := by
  rw [Store.grantedTo_iff hd] at hg
  unfold requireAdministrator
  rw [bind_ok (caller_of_names hn s), bind_ok (principal?_calm hs ref)]
  cases hr : s.current.resolve? ref.kind ref.identifier with
  | none => exact ⟨_, bind_ok (Decision.authorize_none _ s), rfl, rfl⟩
  | some record =>
    obtain ⟨o, reason, ha⟩ :=
      (Decision.authorize_calm hs hc hd record.handle [Bootstrap.accessManagement]).2 (by
        rintro ⟨name, hm, hn⟩
        obtain rfl := List.mem_singleton.mp hm
        exact hg ⟨record, hr, hn⟩)
    exact ⟨_, bind_ok ha, rfl, rfl⟩

theorem requireAdministrator_refuses (hu : settings.tokenConfig.Usable)
    (h : ∀ ref, ¬ Names settings request ref) (s : Session) :
    ∃ detail, requireAdministrator settings request s = .error (.refused 401 detail) s := by
  obtain ⟨detail, hc⟩ := caller_of_nobody hu h s
  exact ⟨detail, bind_error hc⟩

end Gate

end Http

end TeamAccess
