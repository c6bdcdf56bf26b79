import TeamAccess.Proofs.Authorization.Decision
import TeamAccess.Proofs.Script.Reference

/-! # Decisions inside a transaction

A decision that meets a failure of the store denies, but the rollback on the way also forgets what
the transaction has written since its last commit. Such a failure is all that lets a decision change
what the transaction leaves behind.
-/

namespace TeamAccess

open TeamAccess.Action

namespace Decision

/-- The decision about a principal meets a failure of the store. -/
def Reverts (st : Store) (outage : Option Outage) (principal : Option PrincipalHandle)
    (required : List String) : Prop :=
  ∃ p ∈ principal, ∃ fault, Stage.Meets st outage (Stage.trail st p required) (.store fault)

variable {s σ : Session} {principal : Option PrincipalHandle} {required : List String}
  {d : Decision}

theorem not_reverts_calm {st : Store} (h : st.missing = []) :
    ¬ Reverts st none principal required := by
  rintro ⟨p, -, fault, hm⟩
  obtain ⟨q, -, hq⟩ := Stage.absent_of_meets h hm
  cases hq

/-- The session after a decision, but for the outage and the events. -/
theorem session_of_authorize (h : authorize principal required s = .ok d σ) :
    (Reverts s.current s.outage principal required →
      ∃ o es, σ = { s with current := s.durable, outage := o, events := es }) ∧
    (¬ Reverts s.current s.outage principal required →
      ∃ o es, σ = { s with outage := o, events := es }) := by
  cases principal with
  | none =>
    cases h
    exact ⟨fun ⟨_, hp, _⟩ => absurd hp (by simp), fun _ => ⟨_, _, rfl⟩⟩
  | some p =>
    rcases authorize_cases s p required with ⟨f, hm, ha⟩ | ⟨hm, ha⟩
    · split at ha
      · obtain ⟨o, reason, ha⟩ := ha
        cases ha.symm.trans h
        constructor
        · rintro ⟨q, hq, fault, hf⟩
          cases hq
          obtain rfl := hf.unique hm
          exact ⟨_, _, rfl⟩
        · intro hn
          cases f with
          | store fault => exact absurd ⟨p, rfl, fault, hm⟩ hn
          | _ => exact ⟨_, _, rfl⟩
      · obtain ⟨o, ha⟩ := ha
        cases ha.symm.trans h
    · have hn : ¬ Reverts s.current s.outage (some p) required := by
        rintro ⟨q, hq, fault, hf⟩
        cases hq
        exact hm _ hf
      refine ⟨fun hr => absurd hr hn, fun _ => ?_⟩
      split at ha
      · obtain ⟨o, -, ha⟩ := ha
        cases ha.symm.trans h
        exact ⟨_, _, rfl⟩
      · obtain ⟨o, ha⟩ := ha
        cases ha.symm.trans h
        exact ⟨_, _, rfl⟩

end Decision

namespace Script

/-- A session between two steps: the outage and the events of a step end with it. -/
structure Idle (s : Session) : Prop where
  outage : s.outage = none
  events : s.events = []

section Steps

variable {s : Session} {step : Step} {steps rest : List Step}

theorem idle_start (st : Store) : Idle (Session.start st) := ⟨rfl, rfl⟩

theorem Idle.eq (h : Idle s) : { s with events := [], outage := none } = s := by
  obtain ⟨durable, current, outage, keys, events⟩ := s
  obtain ⟨rfl, rfl⟩ := h
  rfl

theorem runStep_idle (step : Step) (s : Session) : Idle (runStep step s).2 := by
  unfold runStep
  split <;> exact ⟨rfl, rfl⟩

theorem runShared_idle (steps : List Step) (h : Idle s) : Idle (runShared steps s).2.2 := by
  induction steps generalizing s with
  | nil => exact h
  | cons step steps ih =>
    unfold runShared
    dsimp only
    split
    · exact ih (runStep_idle step s)
    · exact runStep_idle step s

theorem runShared_cons_of_ok {answer : Answer} (h : (runStep step s).1.outcome = .ok answer) :
    (runShared (step :: steps) s).2 = (runShared steps (runStep step s).2).2 := by
  simp only [runShared, h]

theorem runShared_append (h : (runShared steps s).2.1 = true) :
    (runShared (steps ++ rest) s).2 = (runShared rest (runShared steps s).2.2).2 := by
  induction steps generalizing s with
  | nil => rfl
  | cons step steps ih =>
    cases hx : (runStep step s).1.outcome with
    | ok answer =>
      rw [runShared_cons_of_ok hx] at h ⊢
      rw [List.cons_append, runShared_cons_of_ok hx, ih h]
    | error f => simp [runShared, hx] at h

/-- What a transaction that is committed leaves behind, from how its steps end. -/
theorem runTransaction_eq {st : Store} {done : Bool}
    (h : (runShared steps (Session.start st)).2 = (done, s)) :
    (runTransaction steps true st).2 = (done, if done then s.current else s.durable) := by
  simp only [runTransaction, h, Bool.and_true]

end Steps

section Calls

variable {S : Session} {ref : PrincipalRef} {required : List String} {outage : Option Outage}
  {answer : Answer}

theorem answers_of_isOk {step : Step} (h : (runStep step S).1.outcome.isOk = true) :
    ∃ answer, (runStep step S).1.outcome = .ok answer := by
  cases ho : (runStep step S).1.outcome with
  | ok answer => exact ⟨answer, rfl⟩
  | error f => simp [ho, Except.isOk, Except.toBool] at h

/-- The session after a call that asks for a decision: as before, or without what has not been
committed. -/
theorem runStep_authorize (hS : Idle S)
    (h : (runStep ⟨.authorize ref required, outage⟩ S).1.outcome = .ok answer) :
    ∃ p ∈ S.current.principalOf? ref,
      (Decision.Reverts S.current outage p required →
        (runStep ⟨.authorize ref required, outage⟩ S).2 = { S with current := S.durable }) ∧
      (¬ Decision.Reverts S.current outage p required →
        (runStep ⟨.authorize ref required, outage⟩ S).2 = S) := by
  unfold runStep at h ⊢
  dsimp only at h ⊢
  rw [hS.eq] at h ⊢
  rcases (principal?_finds ref).quiet hS.outage with ⟨f, s, hx⟩ | ⟨p, hp, hx⟩
  · simp [perform, bind_error hx] at h
  · refine ⟨p, hp, ?_⟩
    simp only [perform, bind_ok hx, bind_apply, during_apply] at h ⊢
    cases ha : Decision.authorize p required { S with outage } with
    | error f s => simp [ha] at h
    | ok d σ =>
      obtain ⟨hr, hn⟩ := Decision.session_of_authorize ha
      simp only [pure_apply]
      constructor
      · intro hv
        obtain ⟨o, es, rfl⟩ := hr hv
        exact Idle.eq (s := { S with current := S.durable }) ⟨hS.outage, hS.events⟩
      · intro hv
        obtain ⟨o, es, rfl⟩ := hn hv
        exact hS.eq

/-- Asking for a decision at some point of a transaction that is then committed changes nothing that
the transaction leaves behind, exactly if there is nothing uncommitted at that point or the decision
meets no failure of the store. -/
theorem authorize_invisible_iff (st : Store) (before : List Step)
    (hS : S = (runShared before (Session.start st)).2.2)
    (hb : (runShared before (Session.start st)).2.1 = true)
    (hc : (runStep ⟨.authorize ref required, outage⟩ S).1.outcome.isOk = true) :
    (∀ after, (runTransaction (before ++ ⟨.authorize ref required, outage⟩ :: after) true st).2 =
        (runTransaction (before ++ after) true st).2) ↔
      S.current = S.durable ∨
        ∀ p ∈ S.current.principalOf? ref, ¬ Decision.Reverts S.current outage p required := by
  have idle : Idle S := hS ▸ runShared_idle before (idle_start st)
  obtain ⟨answer, hc⟩ := answers_of_isOk hc
  have inserted : ∀ after,
      (runShared (before ++ ⟨.authorize ref required, outage⟩ :: after) (Session.start st)).2 =
        (runShared after (runStep ⟨.authorize ref required, outage⟩ S).2).2 := fun after => by
    rw [runShared_append hb, ← hS, runShared_cons_of_ok hc]
  have left : ∀ after, (runShared (before ++ after) (Session.start st)).2 =
      (runShared after S).2 := fun after => by
    rw [runShared_append hb, ← hS]
  obtain ⟨p, hp, hr, hn⟩ := runStep_authorize idle hc
  constructor
  · intro h
    by_cases hv : Decision.Reverts S.current outage p required
    · have h := h []
      rw [hr hv] at inserted
      rw [runTransaction_eq (inserted []), runTransaction_eq (left [])] at h
      exact .inl (congrArg Prod.snd h).symm
    · refine .inr fun q hq => ?_
      rwa [Option.mem_unique hq hp]
  · intro h after
    have same : (runStep ⟨.authorize ref required, outage⟩ S).2 = S := by
      by_cases hv : Decision.Reverts S.current outage p required
      · rcases h with h | h
        · exact (hr hv).trans (congrArg (fun c => { S with current := c }) h.symm)
        · exact absurd hv (h p hp)
      · exact hn hv
    rw [same] at inserted
    rw [runTransaction_eq (inserted after), runTransaction_eq (left after)]

end Calls

section Sample

/-- A decision about a directory user while the driver gives out. -/
def cutOff : Step := ⟨.authorize (.stored "LDAP" "ann") ["P"], some ⟨.findUser, .store .locked, 0⟩⟩

/-- A team that has been created is still there after a decision that nothing cuts off. -/
theorem authorize_invisible_uncommitted :
    let before : List Step := [⟨.createTeam "t", none⟩]
    let call : Step := ⟨.authorize (.stored "LDAP" "ann") ["P"], none⟩
    let S := (runShared before (Session.start Sample.store)).2.2
    (runShared before (Session.start Sample.store)).2.1 = true ∧
      (runStep call S).1.outcome.isOk = true ∧
      S.current ≠ S.durable ∧
      ∀ after, (runTransaction (before ++ call :: after) true Sample.store).2 =
        (runTransaction (before ++ after) true Sample.store).2 := by
  intro before call S
  have hb : (runShared before (Session.start Sample.store)).2.1 = true := by decide +kernel
  have hc : (runStep call S).1.outcome.isOk = true := by decide +kernel
  have hm : S.current.missing = [] := by decide +kernel
  refine ⟨hb, hc, by decide +kernel, ?_⟩
  exact (authorize_invisible_iff Sample.store before rfl hb hc).mpr
    (.inr fun _ _ => Decision.not_reverts_calm hm)

/-- A decision that the driver fails under denies, and the team that was created before is lost. -/
theorem authorize_discards_uncommitted :
    Reachable Sample.store ∧
      let before : List Step := [⟨.createTeam "t", none⟩]
      (runTransaction (before ++ [cutOff]) true Sample.store).2 ≠
        (runTransaction before true Sample.store).2 :=
  ⟨Sample.reachable, by decide +kernel⟩

end Sample

end Script

end TeamAccess
