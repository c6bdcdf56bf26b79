import TeamAccess.Proofs.Script.Tentative
import TeamAccess.Proofs.Script.Transaction
import TeamAccess.Proofs.Service.Commits

/-! # What an abandoned transaction leaves behind

A transaction that fails, or is not committed at its end, is undone as far as its services have not
committed it on the way. Such a commit takes along whatever the steps before it have written.
-/

namespace TeamAccess

open TeamAccess.Action

/-- The rows with everything that is stored at startup. -/
def Bootstrap.startup (st : Store) (admin : Option String) : Store :=
  (left (prepare admin) (Session.start st)).current

/-- What the principal and the team of two references determine, if both are named. -/
def Store.ofNamed (st : Store) (ref : PrincipalRef) (teamRef : TeamRef)
    (states : PrincipalHandle → TeamHandle → List Store) : List Store :=
  match (st.principalOf? ref).join, st.teamOf? teamRef with
  | some p, some team => states p team
  | _, _ => []

/-- What a command commits, one state after the other, if nothing interrupts its service. -/
def Command.states (st : Store) : Command → List Store
  | .addMember ref teamRef => st.ofNamed ref teamRef (MembershipService.addStates st)
  | .removeMember ref teamRef => st.ofNamed ref teamRef (MembershipService.removeStates st)
  | .sync ref assertion =>
    match (st.principalOf? ref).join with
    | some p => Synchronization.syncStates st p assertion
    | none => []
  | .bootstrap admin => [Bootstrap.startup st admin]
  | _ => []

namespace Script

/-- What a step commits: the bootstrap as a whole, every other service as much as it records. -/
def commits (step : Step) (S : Session) : List Store :=
  let result := (runStep step S).1
  match step.command with
  | .bootstrap _ => if result.outcome.isOk then step.command.states S.current else []
  | _ => (step.command.states S.current).take (result.events.countP Event.isMembership)

/-- What steps that share a session commit, up to the first failure. -/
def commitsAlong : List Step → Session → List Store
  | [], _ => []
  | step :: rest, S => commits step S ++
      if (runStep step S).1.outcome.isOk then commitsAlong rest (runStep step S).2 else []

variable {S : Session} {step : Step} {steps : List Step} {outage : Option Outage}
  {states : List Store}

section Services

variable {α β : Type} {x : Action α}

theorem left_during (outage : Option Outage) (x : Action α) (S : Session) :
    left (during outage x) S = { left x { S with outage } with outage := none } := by
  unfold left
  rw [during_apply]
  cases x { S with outage } <;> rfl

theorem left_bind_pure (x : Action α) (g : α → β) (S : Session) :
    left (do return g (← x)) S = left x S := by
  unfold left
  rw [bind_apply]
  cases x S <;> rfl

/-- What is committed after something has been looked up. -/
theorem counted_bind {o : Option α} {g : α → Action β} (hx : Finds S.current x o)
    (hS : S.outage = none) (hg : ∀ a ∈ o, S.Counted states (left (g a) S)) :
    S.Counted states (left (x >>= g) S) := by
  obtain ⟨f, hr⟩ := hx
  unfold left at hg ⊢
  rw [bind_apply]
  rcases hr.cases with ⟨f, o', hf⟩ | ⟨a, o', ha, hn, hf⟩
  · rw [hf]
    exact ⟨[], by simp, rfl⟩
  · have same : ({ S with outage := o' } : Session) = S := by rw [hn hS, ← hS]
    rw [hf, same]
    cases o with
    | none => cases ha
    | some b =>
      cases ha
      exact hg a rfl

/-- What a service commits that a step calls. -/
theorem counted_during {plan : Plan α} (hx : Covers x plan) (hp : plan.Commits S.current states)
    (g : α → β) : S.Counted states (left (do return g (← during outage x)) S) := by
  rw [left_bind_pure, left_during]
  exact hx.counted (s := { S with outage }) hp

/-- What a service commits that changes the membership which two references name. -/
theorem counted_named {service : PrincipalHandle → TeamHandle → Action Bool}
    {plan : PrincipalHandle → TeamHandle → Plan Bool}
    {own : PrincipalHandle → TeamHandle → List Store} (hS : S.outage = none)
    (hx : ∀ p t, Covers (service p t) (plan p t))
    (hp : ∀ p t, (plan p t).Commits S.current (own p t)) (ref : PrincipalRef)
    (teamRef : TeamRef) :
    S.Counted (S.current.ofNamed ref teamRef own) (left (do
      let p ← principal? ref
      let t ← team teamRef
      let p ← subject "identifier" p
      return Answer.flag (← during outage (service p t))) S) := by
  refine counted_bind (principal?_finds ref) hS fun p hr => ?_
  refine counted_bind (team_finds teamRef) hS fun t ht => ?_
  refine counted_bind (subject_finds _ p) hS fun q hq => ?_
  rw [Option.mem_def.mp hq, Option.mem_def] at hr
  simp only [Store.ofNamed, hr, Option.mem_def.mp ht, Option.join_some]
  exact counted_during (hx q t) (hp q t) _

theorem perform_counted {command : Command} (hS : S.outage = none) (outage : Option Outage)
    (hc : command.commits = true) (hb : ∀ admin, command ≠ .bootstrap admin) :
    S.Counted (command.states S.current) (left (perform outage command) S) := by
  cases command with
  | addMember ref teamRef =>
    exact counted_named hS MembershipService.add_covers
      (MembershipService.addPlan_commits S.current) ref teamRef
  | removeMember ref teamRef =>
    exact counted_named hS MembershipService.remove_covers
      (MembershipService.removePlan_commits S.current) ref teamRef
  | sync ref assertion =>
    refine counted_bind (principal?_finds ref) hS fun p hp => ?_
    have refused : ∃ o, Finds S.current assertion.refuseLoneText o := by
      cases assertion with
      | loneText => exact ⟨none, _, .throw _⟩
      | _ => exact ⟨_, .pure ()⟩
    refine counted_bind refused.choose_spec hS fun _ _ => ?_
    refine counted_bind (subject_finds _ p) hS fun q hq => ?_
    rw [Option.mem_def.mp hq, Option.mem_def] at hp
    simp only [Command.states, hp, Option.join_some]
    exact counted_during (Synchronization.synchronize_covers q assertion)
      (Synchronization.synchronizePlan_commits S.current q assertion) _
  | bootstrap admin => exact absurd rfl (hb admin)
  | _ => simp [Command.commits] at hc

/-- The bootstrap commits everything at once or nothing. -/
theorem bootstrap_settles (hS : Idle S) (outage : Option Outage) (admin : Option String) :
    (∃ answer s', perform outage (.bootstrap admin) S = .ok answer s' ∧
      s'.durable = Bootstrap.startup S.current admin) ∨
    ∃ f s', perform outage (.bootstrap admin) S = .error f s' ∧ s'.durable = S.durable := by
  have seen : (Session.start S.current).over S = S := by
    obtain ⟨durable, current, outage, keys, events⟩ := S
    obtain ⟨rfl, rfl⟩ := hS
    rfl
  have same := Bootstrap.prepare_local admin (Session.start S.current) S
  rw [seen] at same
  have whole : perform outage (.bootstrap admin) = (do
      Bootstrap.prepare admin
      commit
      return Answer.nothing) := by
    have called : perform outage (.bootstrap admin) = (do
        Bootstrap.ensure admin
        return Answer.nothing) := rfl
    rw [called, Bootstrap.ensure_eq, bind_assoc]
  rw [whole, bind_apply, same]
  unfold Bootstrap.startup left
  cases Bootstrap.prepare admin (Session.start S.current) with
  | error f s' => exact .inr ⟨f, _, rfl, rfl⟩
  | ok _ s' =>
    rcases probe_cases (.call .commit) (s'.over S) with ⟨f, hp, -⟩ | ⟨o, hp, -⟩
    · exact .inr ⟨f, s'.over S, bind_error (bind_error hp), rfl⟩
    · exact .inl ⟨.nothing, _, bind_ok (bind_ok hp), rfl⟩

end Services

theorem runStep_left (hS : Idle S) (outage : Option Outage) (command : Command) :
    (runStep ⟨command, outage⟩ S).2.durable = (left (perform outage command) S).durable ∧
      (runStep ⟨command, outage⟩ S).1.events = (left (perform outage command) S).events := by
  unfold runStep left
  rw [hS.eq]
  cases perform outage command S <;> exact ⟨rfl, rfl⟩

theorem runStep_bootstrap (hS : Idle S) (outage : Option Outage) (admin : Option String) :
    (runStep ⟨.bootstrap admin, outage⟩ S).2.durable =
      (commits ⟨.bootstrap admin, outage⟩ S).getLast?.getD S.durable := by
  rw [(runStep_left hS outage _).1]
  simp only [commits, Command.states]
  rcases bootstrap_settles hS outage admin with ⟨answer, s', hx, hs⟩ | ⟨f, s', hx, hs⟩
  · have succeeds : (runStep ⟨.bootstrap admin, outage⟩ S).1.outcome = .ok answer := by
      simp only [runStep, hS.eq, hx]
    rw [succeeds]
    simpa [left, hx, Except.isOk, Except.toBool] using hs
  · have fails : (runStep ⟨.bootstrap admin, outage⟩ S).1.outcome = .error f := by
      simp only [runStep, hS.eq, hx]
    rw [fails]
    simpa [left, hx, Except.isOk, Except.toBool] using hs

theorem commits_of_ne {command : Command} (hb : ∀ admin, command ≠ .bootstrap admin) :
    commits ⟨command, outage⟩ S = (command.states S.current).take
      ((runStep ⟨command, outage⟩ S).1.events.countP Event.isMembership) := by
  cases command with
  | bootstrap admin => exact absurd rfl (hb admin)
  | _ => rfl

theorem states_of_not_commits {command : Command} (hc : command.commits = false) (st : Store) :
    command.states st = [] := by
  cases command <;> first | rfl | simp [Command.commits] at hc

/-- What is committed after a step is what the step has committed last. -/
theorem runStep_durable (hS : Idle S) (step : Step) :
    (runStep step S).2.durable = (commits step S).getLast?.getD S.durable := by
  obtain ⟨command, outage⟩ := step
  by_cases hb : ∃ admin, command = .bootstrap admin
  · obtain ⟨admin, rfl⟩ := hb
    exact runStep_bootstrap hS outage admin
  · have other : ∀ admin, command ≠ .bootstrap admin := fun admin hx => hb ⟨admin, hx⟩
    obtain ⟨hd, he⟩ := runStep_left hS outage command
    rw [hd, commits_of_ne other]
    cases hc : command.commits with
    | true =>
      obtain ⟨notes, hn, hs⟩ := perform_counted hS.outage outage hc other
      rw [hS.events, List.nil_append] at hn
      rw [hs, he, hn]
    | false =>
      have pends : Pends (perform outage command) := perform_pends hc
      have kept := pends S.durable S rfl
      rw [states_of_not_commits hc, List.take_nil]
      revert kept
      unfold left
      cases perform outage command S <;> exact id

theorem runShared_durable (hS : Idle S) (steps : List Step) :
    (runShared steps S).2.2.durable = (commitsAlong steps S).getLast?.getD S.durable := by
  induction steps generalizing S with
  | nil => rfl
  | cons step steps ih =>
    have here := runStep_durable hS step
    unfold runShared commitsAlong
    dsimp only
    cases hx : (runStep step S).1.outcome with
    | error f => simpa [Except.isOk, Except.toBool] using here
    | ok answer =>
      have rest := ih (runStep_idle step S)
      simp only [Except.isOk, Except.toBool, if_true]
      rw [rest, here, List.getLast?_append]
      cases (commitsAlong steps (runStep step S).2).getLast? <;> rfl

/-- A transaction that fails at a step, or is not committed at its end, leaves the state that a
service has committed last within it; the store is as before if none has. -/
theorem abandoned_transaction {st : Store} {commit : Bool}
    (h : (runTransaction steps commit st).2.1 = false) :
    (runTransaction steps commit st).2.2 =
      (commitsAlong steps (Session.start st)).getLast?.getD st := by
  have settled := runShared_durable (idle_start st) steps
  have undone : ((runShared steps (Session.start st)).2.1 && commit) = false := h
  simp only [runTransaction, undone]
  exact settled

/-- A team that has just been created and mapped outlives the transaction with the first change of a
synchronization, which takes a user out of another team. The second change cannot be committed. -/
theorem abandoned_transaction_midway :
    let steps : List Step := [⟨.createTeam "crew", none⟩,
      ⟨.mapLdap (.stored "crew") "cn=crew", none⟩,
      ⟨.sync (.stored "LDAP" "ann") (.groups ["cn=crew"]), some ⟨.commit, .store .locked, 1⟩⟩]
    let crew : Team := ⟨Sample.id 5, "crew"⟩
    let left : Store := { Sample.store with
      teams := Sample.store.teams ++ [crew]
      ldapMappings := Sample.store.ldapMappings ++ [⟨crew.id, "cn=crew"⟩]
      memberships := [⟨.apiKey, Sample.key.id, Sample.admins.id⟩] }
    (runTransaction steps true Sample.store).2.1 = false ∧
      (runTransaction steps true Sample.store).2.2 =
        (commitsAlong steps (Session.start Sample.store)).getLast?.getD Sample.store ∧
      (commitsAlong steps (Session.start Sample.store)).getLast? = some left := by
  intro steps crew left
  have fails : (runTransaction steps true Sample.store).2.1 = false := by decide +kernel
  exact ⟨fails, abandoned_transaction fails, by decide +kernel⟩

end Script

end TeamAccess
