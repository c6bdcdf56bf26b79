import TeamAccess.Proofs.Http.Administration
import TeamAccess.Proofs.Service.Failure

/-! # The gate during an outage

A failure of the store that is met while a caller is resolved or authorized refuses the request, and
none comes out of the gate as such.
-/

namespace TeamAccess

open TeamAccess.Action

namespace Action

variable {α β : Type} {x : Action α}

/-- Whatever becomes of an action, an outage goes on hitting the same calls. -/
def Steady (act : Action α) : Prop :=
  ∀ s, (left act s).outage.map (·.call) = s.outage.map (·.call)

namespace Steady

theorem pure (a : α) : Steady (pure a) := fun _ => rfl

theorem throw (f : Failure) : Steady (throw f : Action α) := fun _ => rfl

theorem record (e : Event) : Steady (record e) := fun _ => rfl

theorem bind {g : α → Action β} (hx : Steady x) (hg : ∀ a, Steady (g a)) : Steady (x >>= g) := by
  intro s
  have first := hx s
  unfold left at first ⊢
  rw [bind_apply]
  cases h : x s with
  | ok a s' =>
    rw [h] at first
    exact (hg a s').trans first
  | error f s' =>
    rw [h] at first
    exact first

theorem tryCatch {g : Failure → Action α} (hx : Steady x)
    (hg : ∀ f s s', x s = .error f s' → Steady (g f)) : Steady (tryCatch x g) := by
  intro s
  have first := hx s
  unfold left at first ⊢
  rw [tryCatch_apply]
  cases h : x s with
  | ok a s' =>
    rw [h] at first
    exact first
  | error f s' =>
    rw [h] at first
    exact (hg f s s' h s').trans first

theorem guarded (hx : Steady x) : Steady (guarded x) := by
  refine hx.tryCatch fun f _ _ _ => ?_
  cases f with
  | store fault => exact fun _ => rfl
  | _ => exact throw _

theorem probe (p : Probe) : Steady (probe p) := by
  intro s
  obtain ⟨durable, current, outage, keys, events⟩ := s
  cases p with
  | read tables =>
    simp only [left, Action.probe, require]
    cases tables.find? (· ∈ current.missing) <;> rfl
  | call c =>
    cases outage with
    | none => rfl
    | some o =>
      by_cases hc : o.call = c
      · by_cases h0 : o.after = 0 <;> simp [left, Action.probe, attempt, hc, h0]
      · simp [left, Action.probe, attempt, hc]

theorem of_reads {r : Store → Except Failure α} (h : ∀ st, Reads st x (r st)) : Steady x := by
  have probes : ∀ ps, Steady (probeAll ps) := by
    intro ps
    induction ps with
    | nil => exact pure ()
    | cons p ps ih => exact (probe p).bind fun _ => ih
  intro s
  obtain ⟨ps, ht⟩ := h s.current
  have settled : Steady (do probeAll ps; settle (r s.current)) := by
    refine (probes ps).bind fun _ => ?_
    cases r s.current with
    | ok a => exact pure a
    | error f => exact throw f
  have whole := settled s
  unfold left at whole ⊢
  rw [ht s rfl]
  exact whole

theorem of_finds {o : Store → Option α} (h : ∀ st, Finds st x (o st)) : Steady x :=
  of_reads fun st => (h st).choose_spec

theorem walk (stages : List Stage) : Steady (walk stages) := by
  induction stages with
  | nil => exact pure _
  | cons stage stages ih =>
    cases stage with
    | access p => exact (probe p).bind fun _ => ih
    | absent p => exact throw _
    | verdict granted =>
      cases granted with
      | true => exact pure _
      | false => exact ih

end Steady

/-- No failure of the store comes out as such, and an outage goes on hitting the same calls. -/
structure Contained (act : Action α) : Prop where
  isSealed : Sealed act
  steady : Steady act

namespace Contained

theorem pure (a : α) : Contained (pure a) := ⟨.pure a, .pure a⟩

theorem throw {f : Failure} (h : ∀ fault, f ≠ .store fault) : Contained (throw f : Action α) :=
  ⟨.throw h, .throw f⟩

theorem record (e : Event) : Contained (record e) := ⟨.record e, .record e⟩

theorem bind {g : α → Action β} (hx : Contained x) (hg : ∀ a, Contained (g a)) :
    Contained (x >>= g) :=
  ⟨hx.isSealed.bind fun a => (hg a).isSealed, hx.steady.bind fun a => (hg a).steady⟩

theorem guarded (hx : Steady x) : Contained (guarded x) := ⟨.guarded x, hx.guarded⟩

theorem tryCatch {g : Failure → Action α} (hx : Contained x)
    (hg : ∀ f, (∀ fault, f ≠ .store fault) → Contained (g f)) : Contained (tryCatch x g) := by
  refine ⟨hx.isSealed.tryCatch fun f hf => (hg f hf).isSealed, hx.steady.tryCatch ?_⟩
  intro f s s' h
  refine (hg f ?_).steady
  rintro fault rfl
  exact hx.isSealed.not_store h

end Contained

end Action

namespace Decision

/-- A decision does not end with a failure of the store. -/
theorem authorize_contained (principal : Option PrincipalHandle) (required : List String) :
    Contained (authorize principal required) := by
  cases principal with
  | none => exact (Contained.record _).bind fun _ => .pure _
  | some p =>
    have asked : Contained (guarded (granted p required)) := by
      refine ⟨.guarded _, fun s => ?_⟩
      have walked := (Steady.walk (Stage.trail s.current p required)).guarded s
      unfold left at walked ⊢
      rw [granted_follows p required s rfl]
      exact walked
    have reason : Contained (reasonToDeny (guarded (granted p required))) := by
      refine (asked.bind fun _ => .pure _).tryCatch fun f hf => ?_
      split
      · exact .pure _
      · exact .pure _
      · exact .throw hf
    refine reason.bind fun found => ?_
    cases found with
    | none => exact .pure _
    | some reason => exact (Contained.record _).bind fun _ => .pure _

end Decision

namespace Http

namespace Gate

variable {settings : Settings} {request : Request} {s s' : Session} {ref : CallerRef}

theorem caller_contained (settings : Settings) (request : Request) :
    Contained (caller settings request) := by
  unfold caller
  dsimp only
  split
  · exact .pure _
  · exact .throw nofun
  · exact .throw nofun

theorem principal?_contained (ref : CallerRef) : Contained (principal? ref) := by
  have read : Steady (Principals.resolve? ref.kind ref.identifier) :=
    .of_reads fun _ => Principals.resolve?_reads ref.kind ref.identifier
  refine (Contained.guarded read).tryCatch fun f hf => ?_
  split
  · exact .pure _
  · exact .throw hf

/-- The gate does not end with a failure of the store. -/
theorem pass_contained (settings : Settings) (request : Request) (access : Access) :
    Contained (pass settings request access) := by
  cases access with
  | anyone => exact .pure _
  | principal =>
    have required : Contained (requirePrincipal settings request) := by
      refine (caller_contained settings request).bind fun ref =>
        (principal?_contained ref).bind fun p => ?_
      cases p with
      | none => exact .throw nofun
      | some p => exact .pure p
    exact required.bind fun _ => .pure _
  | administrator =>
    have required : Contained (requireAdministrator settings request) := by
      refine (caller_contained settings request).bind fun ref =>
        (principal?_contained ref).bind fun p => ?_
      refine (Decision.authorize_contained _ _).bind fun decision => ?_
      split
      · exact .pure _
      · exact .throw nofun
    exact required.bind fun _ => .pure _

/-- A store call fails while a caller is resolved or authorized. -/
inductive Fails (s : Session) (ref : CallerRef) (fault : StoreFault) : Access → Prop
  | resolving {access : Access} {s' : Session} (ha : access ≠ .anyone)
      (h : Principals.resolve? ref.kind ref.identifier s = .error (.store fault) s') :
      Fails s ref fault access
  | authorizing {record : PrincipalRecord} {s' : Session}
      (h : Principals.resolve? ref.kind ref.identifier s = .ok (some record) s')
      (hm : Stage.Meets s'.current s'.outage
        (Stage.trail s'.current record.handle [Bootstrap.accessManagement]) (.store fault)) :
      Fails s ref fault .administrator

theorem pass_of_fails {fault : StoreFault} {access : Access} (hn : Names settings request ref)
    (h : Fails s ref fault access) :
    ∃ s', pass settings request access s = .error forbidden s' := by
  cases h with
  | @resolving access s' ha h =>
    have unknown : principal? ref s = .ok none (s'.leftBy (.store fault)) := by
      rw [principal?, tryCatch_apply, Decision.guarded_error h]
      rfl
    cases access with
    | anyone => exact absurd rfl ha
    | principal =>
      have refused : requirePrincipal settings request s =
          .error forbidden (s'.leftBy (.store fault)) := by
        unfold requirePrincipal
        rw [bind_ok (caller_of_names hn s), bind_ok unknown]
        rfl
      exact ⟨_, bind_error refused⟩
    | administrator =>
      have refused : ∃ σ, requireAdministrator settings request s = .error forbidden σ := by
        unfold requireAdministrator
        rw [bind_ok (caller_of_names hn s), bind_ok unknown]
        exact ⟨_, bind_ok (Decision.authorize_none _ _)⟩
      exact ⟨_, bind_error refused.choose_spec⟩
  | @authorizing record s' h hm =>
    have known : principal? ref s = .ok (some record) s' := by
      rw [principal?, tryCatch_apply, guarded_ok h]
    have denied : ∃ σ, Decision.authorize (some record.handle) [Bootstrap.accessManagement] s' =
        .ok .deny σ := by
      rcases Decision.authorize_cases s' record.handle [Bootstrap.accessManagement] with
        ⟨f, hf, ha⟩ | ⟨hf, -⟩
      · obtain rfl := hm.unique hf
        obtain ⟨o, reason, ha⟩ := ha
        exact ⟨_, ha⟩
      · exact absurd hm (hf _)
    obtain ⟨σ, hd⟩ := denied
    have refused : requireAdministrator settings request s = .error forbidden σ := by
      unfold requireAdministrator
      rw [bind_ok (caller_of_names hn s), bind_ok known]
      exact bind_ok hd
    exact ⟨_, bind_error refused⟩

end Gate

end Http

end TeamAccess
