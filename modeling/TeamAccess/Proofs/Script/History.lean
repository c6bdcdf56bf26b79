import TeamAccess.Proofs.Script.Effect

/-! # Histories of edges

Over a whole script, memberships, grants and mappings behave as sets: an edge is there if the last
successful step on it added it. A step that fails changes nothing, and one that succeeds reports
whether it changed the presence of its edge.
-/

namespace TeamAccess.Script

open TeamAccess.Action

variable {s : Store}

variable {step : Step} {steps : List Step} {e : Edge}

/-- A step that answers has its effect, and one that fails changes nothing. -/
theorem runSingle_effect (hm : s.missing = []) (ho : step.outage = none)
    (hc : step.command.IsPlain) :
    match (runSingle step s).1.outcome with
    | .ok answer => step.command.Effect s answer (runSingle step s).2
    | .error _ => (runSingle step s).2 = s := by
  have start : { Session.start s with events := [], outage := none } = Session.start s := rfl
  have h := perform_effect hm hc (Session.start s) ⟨rfl, rfl, rfl⟩
  unfold runSingle runStep
  rw [start, ho]
  revert h
  cases perform none step.command (Session.start s) with
  | ok answer σ => exact id
  | error f σ => exact id

/-- What the successful steps of a script set the presence of an edge to, in order. -/
def history (e : Edge) : List Step → Store → List Bool
  | [], _ => []
  | step :: rest, s =>
    ((runSingle step s).1.outcome.toOption.bind fun answer =>
      step.command.sets? s answer e).toList ++ history e rest (runSingle step s).2

/-- A step sets the presence of an edge, or leaves it as it is. -/
theorem runSingle_has (hm : s.missing = []) (ho : step.outage = none)
    (hc : step.command.IsPlain) (e : Edge) :
    (runSingle step s).2.Has e ↔ ((runSingle step s).1.outcome.toOption.bind fun answer =>
      step.command.sets? s answer e).elim (s.Has e) (· = true) := by
  have h := runSingle_effect hm ho hc
  revert h
  cases (runSingle step s).1.outcome with
  | ok answer => exact fun h => h.has e
  | error f =>
    intro h
    rw [h]
    exact Iff.rfl

/-- Plain steps remove no table. -/
theorem run_complete (hm : s.missing = []) (hp : ∀ step ∈ steps, step.command.IsPlain) :
    (run (steps.map .single) s).2.missing = [] := by
  refine run_keeps (I := (·.missing = [])) (Store.closed_missing []) ?_ hm
  intro entry he step hs name hn
  obtain ⟨step', hs', rfl⟩ := List.mem_map.mp he
  obtain rfl : step = step' := by simpa [Entry.steps] using hs
  have plain := hp step hs'
  rw [hn] at plain
  exact plain

/-- After a script, an edge is there as the last step that was about it has left it. -/
theorem run_has (hm : s.missing = [])
    (hp : ∀ step ∈ steps, step.outage = none ∧ step.command.IsPlain) (e : Edge) :
    (run (steps.map .single) s).2.Has e ↔
      (history e steps s).getLast?.elim (s.Has e) (· = true) := by
  induction steps generalizing s with
  | nil => exact Iff.rfl
  | cons step rest ih =>
    obtain ⟨ho, hc⟩ := hp step (by simp)
    have complete : (runSingle step s).2.missing = [] :=
      @run_complete s [step] hm (by simpa using hc)
    have has := ih complete fun step hs => hp step (by simp [hs])
    refine has.trans ?_
    rw [history, List.getLast?_append]
    cases (history e rest (runSingle step s).2).getLast? with
    | some b => rfl
    | none =>
      refine (runSingle_has hm ho hc e).trans ?_
      cases (runSingle step s).1.outcome.toOption.bind fun answer =>
        step.command.sets? s answer e <;> rfl

/-- Over every script of single steps that name stored principals and teams, an edge is there at the
end if the last successful step that was about it added it, and not if that removed it or if no step
was about it; and every successful step on an edge answers whether it changed its presence. -/
theorem edges_follow_history (steps : List Step)
    (hp : ∀ step ∈ steps, step.outage = none ∧ step.command.IsPlain) :
    (∀ e, (run (steps.map .single) .empty).2.Has e ↔
      (history e steps .empty).getLast? = some true) ∧
    ∀ before step after answer, steps = before ++ step :: after →
      let s := (run (before.map .single) .empty).2
      let s' := (runSingle step s).2
      (runSingle step s).1.outcome = .ok answer → step.command.edits = true →
      ∃ e added, step.command.edge? s = some (e, added) ∧
        answer.changed? = some (decide (s.Has e) != decide (s'.Has e)) := by
  constructor
  · intro e
    rw [run_has rfl hp]
    cases (history e steps .empty).getLast? with
    | none => simp [Store.not_has_empty]
    | some b => simp
  · rintro before step after answer rfl s s' ha he
    have complete : s.missing = [] :=
      run_complete rfl fun step hs => (hp step (by simp [hs])).2
    obtain ⟨ho, hc⟩ := hp step (by simp)
    have h := runSingle_effect complete ho hc
    rw [ha] at h
    obtain ⟨e, added, own, reports⟩ := h.flag he
    have left : s'.Has e ↔ added = true := by
      rw [h.has, Command.sets?_of_edge? own, if_pos rfl]
      exact Iff.rfl
    refine ⟨e, added, own, reports.trans ?_⟩
    simp only [left, Bool.decide_eq_true]

/-- A user joins a team, twice, and leaves it after leaving a team that there is not. -/
def rejoined : List Step := [
  ⟨.createTeam "ops", none⟩,
  ⟨.createUser "LDAP" "ann" [], none⟩,
  ⟨.addMember (.stored "LDAP" "ann") (.stored "ops"), none⟩,
  ⟨.addMember (.stored "LDAP" "ann") (.stored "ops"), none⟩,
  ⟨.removeMember (.stored "LDAP" "ann") (.stored "dev"), none⟩,
  ⟨.removeMember (.stored "LDAP" "ann") (.stored "ops"), none⟩]

/-- The second joining answers that nothing has changed, and nobody is a member at the end. -/
theorem edges_follow_history_rejoined :
    let ann : Edge := .member ⟨.user .ldap, ⟨Store.firstId + 1⟩, ⟨Store.firstId⟩⟩
    let join : Step := ⟨.addMember (.stored "LDAP" "ann") (.stored "ops"), none⟩
    let s := (run ((rejoined.take 3).map .single) .empty).2
    (∀ step ∈ rejoined, step.outage = none ∧ step.command.IsPlain) ∧
      history ann rejoined .empty = [true, true, false] ∧
      ¬ (run (rejoined.map .single) .empty).2.Has ann ∧
      ∃ e added, join.command.edge? s = some (e, added) ∧
        (decide (s.Has e) != decide ((runSingle join s).2.Has e)) = false := by
  intro ann join s
  have plain : ∀ step ∈ rejoined, step.outage = none ∧ step.command.IsPlain := by
    simp [rejoined, Command.IsPlain, PrincipalRef.IsStored, TeamRef.IsStored]
  have set : history ann rejoined .empty = [true, true, false] := by decide +kernel
  have answered : (runSingle join s).1.outcome.toOption = some (.flag false) := by decide +kernel
  obtain ⟨has, reports⟩ := edges_follow_history rejoined plain
  refine ⟨plain, set, by simp [has, set], ?_⟩
  cases h : (runSingle join s).1.outcome with
  | error f => simp [h, Except.toOption] at answered
  | ok answer =>
    obtain rfl : answer = .flag false := by simpa [h, Except.toOption] using answered
    obtain ⟨e, added, own, flag⟩ := reports (rejoined.take 3) join (rejoined.drop 4) _ rfl h rfl
    exact ⟨e, added, own, (Option.some.inj flag).symm⟩

end TeamAccess.Script
