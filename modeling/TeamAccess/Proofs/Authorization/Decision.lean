import TeamAccess.Proofs.Authorization.Trail
import TeamAccess.Proofs.Reachable

/-! # Decisions are exact and fail closed

When nothing fails, a caller is allowed exactly if one of the required permissions is granted to
what it stands for. When something fails, the caller is denied or the failure comes out, unless a
check granted before.
-/

namespace TeamAccess

open TeamAccess.Action

/-- Whether a decision that meets this failure denies. -/
def Failure.isDenied : Failure → Bool
  | .store _ | .unavailable _ | .notFound .. => true
  | _ => false

/-- The session that a guarded question leaves behind when it fails: a failure of the store undoes
what has not been committed. -/
def Session.leftBy (s : Session) : Failure → Session
  | .store _ => { s with current := s.durable }
  | _ => s

section LeftBy

variable {s : Session}

theorem Session.leftBy_of_eq (h : s.durable = s.current) (f : Failure) : s.leftBy f = s := by
  obtain ⟨durable, current, outage, keys, events⟩ := s
  obtain rfl : durable = current := h
  cases f <;> rfl

theorem Session.leftBy_outage (o : Option Outage) (f : Failure) :
    ({ s with outage := o } : Session).leftBy f = { s.leftBy f with outage := o } := by
  cases f <;> rfl

@[simp] theorem Session.leftBy_events (f : Failure) : (s.leftBy f).events = s.events := by
  cases f <;> rfl

end LeftBy

namespace Decision

/-- What is recorded with a decision: nothing if it allows, one security failure if it denies. -/
def Recorded (events : List Event) : Decision → Prop
  | .allow => events = []
  | .deny => ∃ e, events = [e] ∧ e.name = "security_failure" ∧ e.level = .info

section Run

variable {s : Session} {p : PrincipalHandle} {required : List String} {f : Failure}
  {granted : Bool} {o : Option Outage}

theorem authorize_none (required : List String) (s : Session) :
    authorize none required s = .ok .deny { s with
      events := s.events ++ [.denied .noPrincipal none required] } := rfl

/-- A failure as it is reported to the decision. -/
def reported : Failure → Failure
  | .store fault => .unavailable fault.message
  | failure => failure

theorem guarded_error {α : Type} {x : Action α} {s' : Session} (h : x s = .error f s') :
    guarded x s = .error (reported f) (s'.leftBy f) := by
  simp only [guarded, tryCatch_apply, h]
  cases f <;> rfl

theorem authorize_of_ok (h : guarded (Decision.granted p required) s =
      .ok granted { s with outage := o }) :
    authorize (some p) required s =
      if granted then .ok .allow { s with outage := o }
      else .ok .deny { s with
        outage := o
        events := s.events ++ [.denied .notGranted (some (p.kind, p.display)) required] } := by
  cases granted <;>
    simp [authorize, reasonToDeny, denyFor, bind_apply, map_apply, tryCatch_apply, h]

/-- A failure denies or comes out. -/
theorem authorize_of_error {s' : Session} (h : guarded (Decision.granted p required) s =
      .error (reported f) s') :
    if f.isDenied then
      ∃ reason, authorize (some p) required s = .ok .deny { s' with
        events := s'.events ++ [.denied reason (some (p.kind, p.display)) required] }
    else authorize (some p) required s = .error f s' := by
  cases f <;>
    simp [authorize, reasonToDeny, denyFor, bind_apply, map_apply, tryCatch_apply, h, reported,
      Failure.isDenied]

/-- The decision about a principal: a failure on the trail that is met denies or comes out;
otherwise the verdicts on the trail decide. -/
theorem authorize_cases (s : Session) (p : PrincipalHandle) (required : List String) :
    (∃ f, Stage.Meets s.current s.outage (Stage.trail s.current p required) f ∧
      if f.isDenied then
        ∃ o reason, authorize (some p) required s = .ok .deny { s.leftBy f with
          outage := o
          events := s.events ++ [.denied reason (some (p.kind, p.display)) required] }
      else ∃ o, authorize (some p) required s = .error f { s.leftBy f with outage := o }) ∨
    (∀ f, ¬ Stage.Meets s.current s.outage (Stage.trail s.current p required) f) ∧
      if .verdict true ∈ Stage.trail s.current p required then
        ∃ o, (s.outage = none → o = none) ∧
          authorize (some p) required s = .ok .allow { s with outage := o }
      else ∃ o, authorize (some p) required s = .ok .deny { s with
        outage := o
        events := s.events ++ [.denied .notGranted (some (p.kind, p.display)) required] } := by
  have hw := granted_follows p required s rfl
  rcases walk_cases (Stage.trail s.current p required) s with
    ⟨f, o, hm, hx⟩ | ⟨granted, o, hm, hg, ho, hx⟩
  · refine .inl ⟨f, hm, ?_⟩
    have ha := authorize_of_error (hw.trans (guarded_error hx))
    rw [Session.leftBy_outage] at ha
    split at ha <;> rename_i hd
    · obtain ⟨reason, ha⟩ := ha
      rw [if_pos hd]
      exact ⟨o, reason, by rw [ha, Session.leftBy_events]⟩
    · rw [if_neg hd]
      exact ⟨o, ha⟩
  · refine .inr ⟨hm, ?_⟩
    have ha := authorize_of_ok (hw.trans (guarded_ok hx))
    cases granted with
    | true =>
      rw [if_pos (hg.mp rfl)]
      exact ⟨o, ho, ha⟩
    | false =>
      rw [if_neg (by simp [← hg])]
      exact ⟨o, ha⟩

end Run

/-- When nothing fails, the decision is exactly what the stored grants say. A caller that is allowed
leaves the session as it was. -/
theorem authorize_calm {s : Session} (hs : s.Calm) (hc : s.durable = s.current)
    (h : s.current.Distinct) (p : PrincipalHandle) (required : List String) :
    ((∃ name ∈ required, s.current.Granted p name) →
      authorize (some p) required s = .ok .allow s) ∧
    ((¬ ∃ name ∈ required, s.current.Granted p name) →
      ∃ o reason, authorize (some p) required s = .ok .deny { s with
        outage := o
        events := s.events ++ [.denied reason (some (p.kind, p.display)) required] }) := by
  rw [← verdict_mem_trail h]
  rcases authorize_cases s p required with ⟨f, hm, ha⟩ | ⟨-, ha⟩
  · rw [Session.leftBy_of_eq hc] at ha
    rw [hs.outage] at hm
    obtain ⟨q, hq, rfl⟩ := Stage.absent_of_meets hs.complete hm
    exact ⟨fun hv => absurd hv (verdict_not_mem_trail_of_absent h hq), fun _ => ha⟩
  · split at ha <;> rename_i hv
    · obtain ⟨o, ho, ha⟩ := ha
      refine ⟨fun _ => ?_, fun hn => absurd hv hn⟩
      obtain rfl := ho hs.outage
      rwa [← hs.outage] at ha
    · obtain ⟨o, ha⟩ := ha
      exact ⟨fun h => absurd h hv, fun _ => ⟨o, _, ha⟩⟩

section Start

variable {s : Store} {outage : Option Outage} {p : PrincipalHandle} {required : List String}
  {f : Failure}

/-- A failure that is met in a new session denies, with a record, or comes out. -/
theorem authorize_of_meets (hm : Stage.Meets s outage (Stage.trail s p required) f) :
    if f.isDenied then ∃ σ, authorize (some p) required (Session.start s outage) = .ok .deny σ ∧
      Recorded σ.events .deny
    else ∃ σ, authorize (some p) required (Session.start s outage) = .error f σ := by
  rcases authorize_cases (Session.start s outage) p required with
    ⟨f', hm', ha⟩ | ⟨hn, -⟩
  · rw [hm.unique hm']
    split at ha <;> rename_i hd
    · obtain ⟨o, reason, ha⟩ := ha
      rw [if_pos hd]
      exact ⟨_, ha, _, rfl, rfl, rfl⟩
    · obtain ⟨o, ha⟩ := ha
      rw [if_neg hd]
      exact ⟨_, ha⟩
  · exact absurd hm (hn f)

/-- When no failure is met in a new session, the verdicts decide and the decision is recorded. -/
theorem authorize_of_not_meets (hm : ∀ f, ¬ Stage.Meets s outage (Stage.trail s p required) f) :
    ∃ d σ, authorize (some p) required (Session.start s outage) = .ok d σ ∧
      Recorded σ.events d ∧ (d = .allow ↔ .verdict true ∈ Stage.trail s p required) := by
  rcases authorize_cases (Session.start s outage) p required with
    ⟨f, hf, -⟩ | ⟨-, ha⟩
  · exact absurd hf (hm f)
  · split at ha <;> rename_i hg
    · obtain ⟨o, -, ha⟩ := ha
      exact ⟨.allow, _, ha, rfl, fun _ => hg, fun _ => rfl⟩
    · obtain ⟨o, ha⟩ := ha
      exact ⟨.deny, _, ha, ⟨_, rfl, rfl, rfl⟩, nofun, fun h => absurd h hg⟩

/-- A decision is recorded, and it allows only if a check granted. -/
theorem recorded_of_authorize {d : Decision} {σ : Session}
    (h : authorize (some p) required (Session.start s outage) = .ok d σ) :
    Recorded σ.events d ∧ (d = .allow → .verdict true ∈ Stage.trail s p required) := by
  by_cases hm : ∃ f, Stage.Meets s outage (Stage.trail s p required) f
  · obtain ⟨f, hm⟩ := hm
    have ha := authorize_of_meets hm
    split at ha
    · obtain ⟨σ', ha, hr⟩ := ha
      cases ha.symm.trans h
      exact ⟨hr, nofun⟩
    · obtain ⟨σ', ha⟩ := ha
      cases ha.symm.trans h
  · obtain ⟨d', σ', ha, hr, hd⟩ := authorize_of_not_meets fun f hf => hm ⟨f, hf⟩
    cases ha.symm.trans h
    exact ⟨hr, hd.mp⟩

/-- What comes out of a decision is a failure that is met and does not deny. -/
theorem meets_of_authorize {σ : Session}
    (h : authorize (some p) required (Session.start s outage) = .error f σ) :
    f.isDenied = false ∧ Stage.Meets s outage (Stage.trail s p required) f := by
  by_cases hm : ∃ f, Stage.Meets s outage (Stage.trail s p required) f
  · obtain ⟨f', hm⟩ := hm
    have ha := authorize_of_meets hm
    split at ha <;> rename_i hd
    · obtain ⟨σ', ha, -⟩ := ha
      cases ha.symm.trans h
    · obtain ⟨σ', ha⟩ := ha
      cases ha.symm.trans h
      exact ⟨by simpa using hd, hm⟩
  · obtain ⟨d', σ', ha, -⟩ := authorize_of_not_meets fun f hf => hm ⟨f, hf⟩
    cases ha.symm.trans h

/-- When nothing fails, the decision is exactly what the stored grants say. -/
theorem authorize_allow_iff_granted (hs : Reachable s) (hc : s.isComplete = true)
    (principal : Option PrincipalHandle) (required : List String) :
    ∃ d σ, authorize principal required (Session.start s) = .ok d σ ∧
      (d = .allow ↔ ∃ p ∈ principal, ∃ name ∈ required, s.Granted p name) := by
  cases principal with
  | none => exact ⟨.deny, _, rfl, by simp⟩
  | some p =>
    have calm : (Session.start s).Calm := ⟨rfl, List.isEmpty_iff.mp hc⟩
    obtain ⟨allows, denies⟩ := authorize_calm calm rfl hs.distinct p required
    by_cases hg : ∃ name ∈ required, s.Granted p name
    · exact ⟨.allow, _, allows hg, by simpa using hg⟩
    · obtain ⟨o, reason, ha⟩ := denies hg
      exact ⟨.deny, _, ha, by simpa using hg⟩

/-- A copy of an API key under another text is allowed what the stored key is. -/
theorem authorize_allow_iff_granted_copy :
    Reachable Sample.store ∧ Sample.store.isComplete = true ∧
      let copy : PrincipalHandle := ⟨.apiKey, some Sample.key.id, "another", false⟩
      let required := ["NOBODY_KNOWS", Bootstrap.accessManagement]
      (∃ name ∈ required, Sample.store.Granted copy name) ∧
        ∃ d σ, authorize (some copy) required (Session.start Sample.store) = .ok d σ ∧
          (d = .allow ↔ ∃ p ∈ some copy, ∃ name ∈ required, Sample.store.Granted p name) := by
  refine ⟨Sample.reachable, rfl, ⟨Bootstrap.accessManagement, by simp, ?_⟩,
    authorize_allow_iff_granted Sample.reachable rfl _ _⟩
  exact ⟨Sample.key, by simp [Sample.store], rfl, Sample.admins, by decide, by decide,
    Sample.management, by decide, rfl, by decide⟩

/-- Whatever fails, a caller is allowed only if one of the required permissions is granted, and the
first failure that is met before a check grants denies or comes out. Each decision is recorded. -/
theorem authorize_fails_closed (hs : Reachable s) (outage : Option Outage)
    (principal : Option PrincipalHandle) (required : List String) :
    (∀ d σ, authorize principal required (Session.start s outage) = .ok d σ →
      Recorded σ.events d ∧
        (d = .allow → ∃ p ∈ principal, ∃ name ∈ required, s.Granted p name)) ∧
    (∀ f σ, authorize principal required (Session.start s outage) = .error f σ →
      f.isDenied = false ∧
        ∃ p ∈ principal, Stage.Meets s outage (Stage.trail s p required) f) ∧
    ∀ p ∈ principal, ∀ f, Stage.Meets s outage (Stage.trail s p required) f →
      if f.isDenied then ∃ σ, authorize principal required (Session.start s outage) = .ok .deny σ
      else ∃ σ, authorize principal required (Session.start s outage) = .error f σ := by
  cases principal with
  | none =>
    have ha := authorize_none required (Session.start s outage)
    refine ⟨fun d σ h => ?_, fun f σ h => ?_, fun p hp => by simp at hp⟩
    · cases ha.symm.trans h
      exact ⟨⟨_, rfl, rfl, rfl⟩, nofun⟩
    · cases ha.symm.trans h
  | some p =>
    refine ⟨fun d σ h => ?_, fun f σ h => ?_, fun q hq f hm => ?_⟩
    · obtain ⟨hr, hd⟩ := recorded_of_authorize h
      refine ⟨hr, fun he => ⟨p, rfl, ?_⟩⟩
      exact (verdict_mem_trail hs.distinct).mp (hd he)
    · obtain ⟨hf, hm⟩ := meets_of_authorize h
      exact ⟨hf, p, rfl, hm⟩
    · obtain rfl := Option.mem_some_iff.mp hq
      have ha := authorize_of_meets hm
      split at ha <;> rename_i hd
      · obtain ⟨σ, ha, -⟩ := ha
        rw [if_pos hd]
        exact ⟨σ, ha⟩
      · rwa [if_neg hd]

/-- A driver that fails during the check of a team denies the API key that is granted. -/
theorem authorize_fails_closed_locked :
    Reachable Sample.store ∧
      let locked : Outage := ⟨.teamHas, .store .locked, 0⟩
      let required := [Bootstrap.accessManagement]
      ∃ σ, authorize (some Sample.key.handle) required (Session.start Sample.store (some locked))
        = .ok .deny σ := by
  refine ⟨Sample.reachable, ?_⟩
  have h := (authorize_fails_closed Sample.reachable (some ⟨.teamHas, .store .locked, 0⟩)
    (some Sample.key.handle) [Bootstrap.accessManagement]).2.2 _ rfl (.store .locked)
  refine h ⟨[.access (.call .reload), .access (.read [.apiKeys]),
    .access (.read [.memberships .apiKey, .teams]),
    .access (.read [.teamGrants, .permissions])], .access (.call .teamHas),
    [.access (.read [.teamGrants, .permissions]), .verdict true], ?_, ?_, by decide, ?_⟩
  · decide +kernel
  · simp [Stage.clear_cons, Stage.clear_nil, Stage.Fails, Stage.pass, Sample.store]
  · exact ⟨_, rfl, rfl, by decide, rfl⟩

end Start

end Decision

end TeamAccess
