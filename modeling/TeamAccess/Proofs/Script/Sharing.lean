import TeamAccess.Proofs.Script.Tentative
import TeamAccess.Proofs.Script.Transaction

/-! # Sharing a session

Steps that share a session see what the steps before them have written, committed or not, and
nothing else. So if a transaction succeeds as a whole, each of its steps does the same in a session
of its own on what the steps before it have left.
-/

namespace TeamAccess

open TeamAccess.Action

namespace Action

theorem walk_local (stages : List Stage) : Local (walk stages) := by
  induction stages with
  | nil => exact .pure _
  | cons x stages ih =>
    cases x with
    | access p =>
      cases p with
      | call c => exact (Local.attempt c).bind fun _ => ih
      | read tables => exact (Local.require tables).bind fun _ => ih
    | absent p => exact .throw _
    | verdict granted =>
      cases granted with
      | true => exact .pure _
      | false => exact ih

end Action

namespace Decision

variable {s : Session}

/-- Where nothing fails, no rollback is made on the way to a decision. -/
theorem granted_localAt (hs : s.Calm) (p : PrincipalHandle) (required : List String) :
    LocalAt s (guarded (granted p required)) := by
  intro t
  have seen : (s.over t).current = s.current := rfl
  have walked := walk_local (Stage.trail s.current p required) s t
  rw [granted_follows p required (s.over t) rfl, granted_follows p required s rfl, seen]
  rcases walk_cases (Stage.trail s.current p required) s with ⟨f, o, hm, hx⟩ | ⟨b, o, -, -, -, hx⟩
  · rw [hs.outage] at hm
    obtain ⟨q, -, rfl⟩ := Stage.absent_of_meets hs.complete hm
    rw [hx] at walked
    rw [guarded_error hx, guarded_error walked]
    rfl
  · rw [hx] at walked
    rw [guarded_ok hx, guarded_ok walked]

/-- Where nothing fails, a decision does not depend on what is committed. -/
theorem authorize_localAt (hs : s.Calm) (principal : Option PrincipalHandle)
    (required : List String) : LocalAt s (authorize principal required) := by
  cases principal with
  | none => exact fun _ => rfl
  | some p =>
    have reason : LocalAt s (reasonToDeny (guarded (granted p required))) := by
      refine LocalAt.tryCatch ?_ fun f => ?_
      · exact (granted_localAt hs p required).bind fun _ s' _ => Local.pure _ s'
      split
      · exact .pure _
      · exact .pure _
      · exact .throw _
    refine reason.bind fun found s' _ => ?_
    cases found with
    | none => exact Local.pure _ s'
    | some reason => exact ((Local.record _).bind fun _ => .pure _) s'

end Decision

namespace Script

/-- A step that no outage hits and that removes no table. -/
structure Step.Undisturbed (step : Step) : Prop where
  outage : step.outage = none
  tables : ∀ name, step.command ≠ .dropTable name

variable {S t : Session} {step : Step} {steps : List Step} {answer : Answer}

theorem Idle.calm (h : Idle S) (hm : S.current.missing = []) : S.Calm := ⟨h.outage, hm⟩

theorem authorize_localAt (hS : S.Calm) (ref : PrincipalRef) (required : List String) :
    LocalAt S (perform none (.authorize ref required)) := by
  refine (principal?_local ref S).bind fun p S' hp => ?_
  obtain rfl : S = S' := by
    rcases (principal?_finds ref).quiet hS.outage with ⟨f, s', hx⟩ | ⟨q, -, hx⟩
    · cases hx.symm.trans hp
    · cases hx.symm.trans hp
      rfl
  have calm : ({ S with outage := none } : Session).Calm := ⟨rfl, hS.complete⟩
  exact (during_localAt (Decision.authorize_localAt calm p required)).bind
    fun _ s' _ => Local.pure _ s'

/-- Where nothing fails, the answer of no command depends on what is committed. -/
theorem perform_over {command : Command} {σ : Session} (hS : S.Calm)
    (h : perform none command S = .ok answer σ) (t : Session) :
    ∃ t', perform none command (S.over t) = .ok answer (σ.over t') := by
  by_cases ha : ∃ ref required, command = .authorize ref required
  · obtain ⟨ref, required, rfl⟩ := ha
    have same := authorize_localAt hS ref required t
    rw [h] at same
    exact ⟨t, same⟩
  · exact perform_blind (fun ref required he => ha ⟨ref, required, he⟩) S t answer σ h

/-- A step that succeeds in a shared session has the same result in a session of its own on the rows
that the shared one sees, and leaves the same rows. -/
theorem runStep_alone (hS : Idle S) (hm : S.current.missing = []) (hs : step.outage = none)
    (h : (runStep step S).1.outcome = .ok answer) :
    (runStep step (Session.start S.current)).1 = (runStep step S).1 ∧
      (runStep step (Session.start S.current)).2.current = (runStep step S).2.current := by
  have fresh : Session.start S.current = S.over (Session.start S.current) := by
    obtain ⟨durable, current, outage, keys, events⟩ := S
    obtain ⟨rfl, rfl⟩ := hS
    rfl
  unfold runStep at h ⊢
  rw [hs, hS.eq] at h ⊢
  rw [(idle_start S.current).eq]
  cases hp : perform none step.command S with
  | error f σ =>
    rw [hp] at h
    cases h
  | ok a σ =>
    obtain ⟨t', ht⟩ := perform_over (hS.calm hm) hp (Session.start S.current)
    rw [fresh, ht]
    exact ⟨rfl, rfl⟩

theorem runSingle_of_shared (hS : Idle S) (hm : S.current.missing = []) (hs : step.outage = none)
    (h : (runStep step S).1.outcome = .ok answer) :
    runSingle step S.current = ((runStep step S).1, (runStep step S).2.current) := by
  obtain ⟨hr, hc⟩ := runStep_alone hS hm hs h
  simp only [runSingle, hr, hc, h]

/-- Steps that succeed in a shared session have the same results one by one. -/
theorem run_of_shared (hS : Idle S) (hm : Inside (·.missing = []) S)
    (hs : ∀ step ∈ steps, Step.Undisturbed step) (h : (runShared steps S).2.1 = true) :
    run (steps.map .single) S.current =
      ((runShared steps S).1.map .single, (runShared steps S).2.2.current) ∧
    ∀ result ∈ (runShared steps S).1, result.outcome.isOk = true := by
  induction steps generalizing S with
  | nil => exact ⟨rfl, by simp [runShared]⟩
  | cons step steps ih =>
    have here := hs step (by simp)
    cases hx : (runStep step S).1.outcome with
    | error f => simp [runShared, hx] at h
    | ok answer =>
      have kept : Inside (·.missing = []) (runStep step S).2 :=
        runStep_inside (perform_keeps ⟨Store.closed_missing [], fun _ _ => trivial⟩
          (fun _ _ => trivial) step.command fun name he => absurd he (here.tables name)) hm
      rw [runShared_cons_of_ok hx] at h
      obtain ⟨singles, succeed⟩ := ih (runStep_idle step S) kept
        (fun step hm => hs step (by simp [hm])) h
      have results : (runShared (step :: steps) S).1 =
          (runStep step S).1 :: (runShared steps (runStep step S).2).1 := by
        simp only [runShared, hx]
      have first := runSingle_of_shared hS hm.current here.outage hx
      refine ⟨?_, ?_⟩
      · rw [runShared_cons_of_ok hx, results]
        simp only [List.map_cons, run, runEntry, first, Prod.map, id, singles]
      · rw [results]
        rintro result (_ | ⟨_, hr⟩)
        · rw [hx]
          rfl
        · exact succeed result hr

end Script

end TeamAccess
