import TeamAccess.Proofs.Reading
import TeamAccess.Registry.Record

/-! # The stages of a decision

A decision goes through stages: accesses to the store, the verdict of each check, and the discovery
that a principal is not stored. It ends at the first stage that fails and at the first verdict that
grants, whichever comes first.
-/

namespace TeamAccess

/-- A stage of a decision. -/
inductive Stage where
  | access (probe : Probe)
  | absent (principal : PrincipalHandle)
  | verdict (granted : Bool)
  deriving DecidableEq, Repr

namespace Stage

variable {st : Store} {outage : Option Outage} {f g : Failure} {x y : Stage}
  {stages before : List Stage}

/-- A stage fails once some others are passed: a call that the outage hits by then, a look at tables
of which one is missing, or a principal that is not stored. -/
def Fails (st : Store) (outage : Option Outage) (before : List Stage) (f : Failure) : Stage → Prop
  | .access (.call c) =>
    ∃ o ∈ outage, o.call = c ∧ o.after ≤ before.count (.access (.call c)) ∧ f = o.failure
  | .access (.read tables) =>
    ∃ t ∈ tables.find? (· ∈ st.missing), f = .store (.noSuchTable t.name)
  | .absent p => f = p.notFound
  | .verdict _ => False

/-- None of some stages fails. -/
def Clear (st : Store) (outage : Option Outage) (stages : List Stage) : Prop :=
  ∀ before x after f, stages = before ++ x :: after → ¬ x.Fails st outage before f

/-- The first of some stages that fails does so with this failure, and none before it grants. -/
def Meets (st : Store) (outage : Option Outage) (stages : List Stage) (f : Failure) : Prop :=
  ∃ before x after, stages = before ++ x :: after ∧ Clear st outage before ∧
    .verdict true ∉ before ∧ x.Fails st outage before f

/-- The outage as it is once a stage is passed. -/
def pass (outage : Option Outage) : Stage → Option Outage
  | .access (.call c) =>
    outage.map fun o => if o.call = c then { o with after := o.after - 1 } else o
  | _ => outage

theorem fails_call {c : StoreCall} : (Stage.access (.call c)).Fails st outage before f ↔
    ∃ o ∈ outage, o.call = c ∧ o.after ≤ before.count (.access (.call c)) ∧ f = o.failure :=
  Iff.rfl

theorem pass_call (c : StoreCall) : (Stage.access (.call c)).pass outage =
    outage.map fun o => if o.call = c then { o with after := o.after - 1 } else o :=
  rfl

theorem fails_cons : y.Fails st outage (x :: before) f ↔ y.Fails st (x.pass outage) before f := by
  rcases y with ⟨c | tables⟩ | p | b
  · rw [fails_call, fails_call]
    rcases x with ⟨d | tables⟩ | p | b
    · rw [pass_call]
      cases outage with
      | none => simp
      | some o =>
        by_cases hc : o.call = c
        · subst hc
          by_cases hd : o.call = d
          · subst hd
            simp
          · simp [hd, Ne.symm hd]
        · by_cases hd : o.call = d
          · simp [hd, hd ▸ hc]
          · simp [hd, hc]
    all_goals
      rw [List.count_cons_of_ne (by simp)]
      exact Iff.rfl
  all_goals exact Iff.rfl

theorem clear_cons :
    Clear st outage (x :: stages) ↔
      (∀ f, ¬ x.Fails st outage [] f) ∧ Clear st (x.pass outage) stages := by
  constructor
  · intro h
    refine ⟨fun f => h [] x stages f rfl, fun before y after f he hf => ?_⟩
    rw [← fails_cons] at hf
    exact h (x :: before) y after f (by rw [he]; rfl) hf
  · rintro ⟨hx, h⟩ before y after f he hf
    cases before with
    | nil =>
      obtain ⟨rfl, rfl⟩ := List.cons.inj he
      exact hx f hf
    | cons z before =>
      obtain ⟨rfl, ht⟩ := List.cons.inj he
      rw [fails_cons] at hf
      exact h before y after f ht hf

theorem clear_nil : Clear st outage [] := by
  intro before x after f he
  simp at he

theorem not_meets_nil : ¬ Meets st outage [] f := by
  rintro ⟨before, x, after, he, -⟩
  simp at he

theorem meets_cons :
    Meets st outage (x :: stages) f ↔
      x.Fails st outage [] f ∨
      (∀ g, ¬ x.Fails st outage [] g) ∧ x ≠ .verdict true ∧ Meets st (x.pass outage) stages f := by
  constructor
  · rintro ⟨before, y, after, he, hc, hv, hf⟩
    cases before with
    | nil =>
      obtain ⟨rfl, rfl⟩ := List.cons.inj he
      exact .inl hf
    | cons z before =>
      obtain ⟨rfl, ht⟩ := List.cons.inj he
      rw [clear_cons] at hc
      rw [fails_cons] at hf
      have hne : x ≠ .verdict true := fun h => hv (by simp [h])
      exact .inr ⟨hc.1, hne, before, y, after, ht, hc.2, fun h => hv (by simp [h]), hf⟩
  · rintro (hf | ⟨hx, hne, before, y, after, he, hc, hv, hf⟩)
    · exact ⟨[], x, stages, rfl, clear_nil, by simp, hf⟩
    · rw [← fails_cons] at hf
      refine ⟨x :: before, y, after, by rw [he]; rfl, ?_, ?_, hf⟩
      · rw [clear_cons]
        exact ⟨hx, hc⟩
      · simp [hv, Ne.symm hne]

theorem Fails.unique (h : x.Fails st outage before f) (h' : x.Fails st outage before g) :
    f = g := by
  rcases x with ⟨c | tables⟩ | p | b
  · obtain ⟨o, ho, -, -, rfl⟩ := h
    obtain ⟨o', ho', -, -, rfl⟩ := h'
    rw [Option.mem_unique ho ho']
  · obtain ⟨t, ht, rfl⟩ := h
    obtain ⟨t', ht', rfl⟩ := h'
    rw [Option.mem_unique ht ht']
  · exact Eq.trans h (Eq.symm h')
  · exact h.elim

theorem Meets.unique (h : Meets st outage stages f) (h' : Meets st outage stages g) : f = g := by
  induction stages generalizing outage with
  | nil => exact absurd h not_meets_nil
  | cons x stages ih =>
    rw [meets_cons] at h h'
    rcases h with hf | ⟨hf, -, hm⟩
    · rcases h' with hg | ⟨hg, -, -⟩
      · exact hf.unique hg
      · exact absurd hf (hg f)
    · rcases h' with hg | ⟨-, -, hm'⟩
      · exact absurd hg (hf g)
      · exact ih hm hm'

/-- Where no access fails, only the absence of a principal is met. -/
theorem absent_of_meets (hm : st.missing = []) (h : Meets st none stages f) :
    ∃ p, .absent p ∈ stages ∧ f = p.notFound := by
  obtain ⟨before, x, after, rfl, -, -, hf⟩ := h
  rcases x with ⟨c | tables⟩ | p | b
  · obtain ⟨o, ho, -⟩ := hf
    exact absurd ho (by simp)
  · obtain ⟨t, ht, -⟩ := hf
    exact absurd (List.find?_some ht) (by simp [hm])
  · exact ⟨p, by simp, hf⟩
  · exact hf.elim

end Stage

namespace Action

variable {α : Type} {s s' : Session} {st : Store} {stages xs ys : List Stage} {f : Failure}

section Guard

theorem guarded_congr {x y : Action α} (h : x s = y s) : guarded x s = guarded y s := by
  simp only [guarded, tryCatch_apply, h]

theorem guarded_ok {x : Action α} {a : α} (h : x s = .ok a s') : guarded x s = .ok a s' := by
  simp only [guarded, tryCatch_apply, h]

theorem guarded_bind {β : Type} (x : Action α) (g : α → Action β) :
    guarded (x >>= g) = guarded x >>= fun a => guarded (g a) := by
  funext s
  simp only [guarded, tryCatch_apply, bind_apply]
  cases x s with
  | ok a s' => rfl
  | error f s' => cases f <;> rfl

theorem guarded_guarded (x : Action α) : guarded (guarded x) = guarded x := by
  funext s
  simp only [guarded, tryCatch_apply]
  cases x s with
  | ok a s' => rfl
  | error f s' => cases f <;> rfl

end Guard

section Walk

/-- Goes through some stages; the answer tells whether one grants. -/
def walk : List Stage → Action Bool
  | [] => return false
  | .access p :: rest => do
    probe p
    walk rest
  | .absent p :: _ => throw p.notFound
  | .verdict granted :: rest => if granted then return true else walk rest

theorem walk_access (p : Probe) (rest : List Stage) :
    walk (.access p :: rest) = probe p >>= fun _ => walk rest :=
  rfl

theorem walk_accesses (ps : List Probe) (rest : List Stage) :
    walk (ps.map .access ++ rest) = (do probeAll ps; walk rest) := by
  induction ps with
  | nil => rfl
  | cons p ps ih =>
    rw [List.map_cons, List.cons_append, walk_access, ih, ← bind_assoc]
    rfl

theorem walk_append (xs ys : List Stage) :
    walk (xs ++ ys) = walk xs >>= fun granted => if granted then pure true else walk ys := by
  induction xs with
  | nil => rfl
  | cons x xs ih =>
    cases x with
    | access p => rw [List.cons_append, walk_access, walk_access, ih, bind_assoc]
    | absent p => rfl
    | verdict granted =>
      cases granted with
      | true => rfl
      | false => exact ih

/-- An access fails if its stage does, and otherwise passes. -/
theorem probe_stage (p : Probe) (s : Session) :
    (∃ f, (Stage.access p).Fails s.current s.outage [] f ∧ probe p s = .error f s) ∨
    ((∀ f, ¬ (Stage.access p).Fails s.current s.outage [] f) ∧
      probe p s = .ok () { s with outage := (Stage.access p).pass s.outage }) := by
  obtain ⟨durable, current, outage, keys, events⟩ := s
  cases p with
  | call c =>
    cases outage with
    | none => exact .inr ⟨by simp [Stage.fails_call], rfl⟩
    | some o =>
      by_cases hc : o.call = c
      · by_cases h0 : o.after = 0
        · exact .inl ⟨o.failure, by simp [Stage.fails_call, hc, h0],
            by simp [probe, attempt, hc, h0]⟩
        · exact .inr ⟨by simp [Stage.fails_call, h0],
            by simp [probe, attempt, Stage.pass_call, hc, h0]⟩
      · exact .inr ⟨by simp [Stage.fails_call, hc], by simp [probe, attempt, Stage.pass_call, hc]⟩
  | read tables =>
    simp only [probe, require, Stage.Fails]
    cases ht : tables.find? (· ∈ current.missing) with
    | none => exact .inr ⟨by simp, rfl⟩
    | some t => exact .inl ⟨_, ⟨t, rfl, rfl⟩, rfl⟩

/-- Going through some stages fails with the failure that is met, if one is; otherwise the answer
tells whether there is a verdict that grants. Only the outage changes. -/
theorem walk_cases (stages : List Stage) (s : Session) :
    (∃ f o, Stage.Meets s.current s.outage stages f ∧
      walk stages s = .error f { s with outage := o }) ∨
    (∃ granted o, (∀ f, ¬ Stage.Meets s.current s.outage stages f) ∧
      (granted = true ↔ .verdict true ∈ stages) ∧ (s.outage = none → o = none) ∧
      walk stages s = .ok granted { s with outage := o }) := by
  induction stages generalizing s with
  | nil => exact .inr ⟨false, s.outage, fun _ => Stage.not_meets_nil, by simp, id, rfl⟩
  | cons x stages ih =>
    simp only [Stage.meets_cons]
    cases x with
    | access p =>
      rcases probe_stage p s with ⟨f, hf, hp⟩ | ⟨hf, hp⟩
      · exact .inl ⟨f, s.outage, .inl hf, bind_error hp⟩
      · rcases ih { s with outage := (Stage.access p).pass s.outage } with
          ⟨f, o, hm, hw⟩ | ⟨granted, o, hm, hg, ho, hw⟩
        · refine .inl ⟨f, o, .inr ⟨hf, by simp, hm⟩, ?_⟩
          rw [walk_access, bind_ok hp, hw]
        · refine .inr ⟨granted, o, ?_, by simp [hg], fun h => ho ?_,
            by rw [walk_access, bind_ok hp, hw]⟩
          · rintro f (h | ⟨-, -, h⟩)
            · exact hf f h
            · exact hm f h
          · cases p <;> simp [Stage.pass, h]
    | absent p => exact .inl ⟨p.notFound, s.outage, .inl rfl, rfl⟩
    | verdict granted =>
      cases granted with
      | true =>
        refine .inr ⟨true, s.outage, ?_, by simp, id, rfl⟩
        rintro f (h | ⟨-, hne, -⟩)
        · exact h
        · exact hne rfl
      | false =>
        rcases ih s with ⟨f, o, hm, hw⟩ | ⟨granted, o, hm, hg, ho, hw⟩
        · exact .inl ⟨f, o, .inr ⟨fun _ h => h, by simp, hm⟩, hw⟩
        · refine .inr ⟨granted, o, ?_, by simp [hg], ho, hw⟩
          rintro f (h | ⟨-, -, h⟩)
          · exact h
          · exact hm f h

end Walk

/-- On the rows of a store, a question goes through some stages, up to how a failure of the store is
reported. -/
def Follows (st : Store) (act : Action Bool) (stages : List Stage) : Prop :=
  ∀ s, s.current = st → guarded act s = guarded (walk stages) s

namespace Follows

variable {act : Action Bool} {ps : List Probe}

theorem guarded (h : Follows st act stages) : Follows st (guarded act) stages := by
  intro s hs
  rw [guarded_guarded, h s hs]

theorem pure_false : Follows st (pure false) [] := fun _ _ => rfl

theorem absent (p : PrincipalHandle) : Follows st (throw p.notFound) [.absent p] := fun _ _ => rfl

/-- Before a question goes on, what it reads first is accessed. -/
theorem after {x : Action α} {g : α → Action Bool} {a : α} (hx : Traces st x ps (.ok a))
    (hg : Follows st (g a) stages) : Follows st (x >>= g) (ps.map .access ++ stages) := by
  intro s hs
  have hxs : (x >>= g) s = (probeAll ps >>= fun _ => g a) s := by
    rw [bind_apply, hx s hs, bind_apply, bind_apply]
    rcases probeAll_cases ps s with ⟨f, o, hp, -⟩ | ⟨o, hp, -⟩
    · simp [hp]
    · simp [hp, settle]
  rw [guarded_congr hxs, walk_accesses, guarded_bind, guarded_bind, bind_apply, bind_apply]
  rcases probeAll_cases ps s with ⟨f, o, hp, -⟩ | ⟨o, hp, -⟩
  · cases f <;> simp [Action.guarded, tryCatch_apply, hp, bind_apply]
  · rw [guarded_ok hp]
    exact hg _ hs

/-- A question about a principal that is not stored ends there. -/
theorem missing {x : Action α} {g : α → Action Bool} {p : PrincipalHandle}
    (hx : Traces st x ps (.error p.notFound)) :
    Follows st (x >>= g) (ps.map .access ++ [.absent p]) := by
  intro s hs
  refine guarded_congr ?_
  rw [walk_accesses, hx.bind_fails s hs]
  rfl

/-- The answer of a check is its verdict. -/
theorem check {granted : Bool} (h : Traces st act ps (.ok granted)) :
    Follows st act (ps.map .access ++ [.verdict granted]) := by
  intro s hs
  refine guarded_congr ?_
  rw [walk_accesses, h s hs]
  cases granted <;> rfl

/-- A second question is asked unless the first one is answered with yes. -/
theorem orElse {x y : Action Bool} (hx : Follows st x xs) (hy : Follows st y ys) :
    Follows st (x >>= fun granted => if granted then pure true else y) (xs ++ ys) := by
  intro s hs
  rw [walk_append, guarded_bind, guarded_bind, bind_apply, bind_apply, hx s hs]
  rcases walk_cases xs s with ⟨f, o, -, hw⟩ | ⟨granted, o, -, -, -, hw⟩
  · cases f <;> simp [Action.guarded, tryCatch_apply, hw, bind_apply]
  · rw [guarded_ok hw]
    cases granted with
    | true => rfl
    | false => exact hy _ hs

end Follows

end Action

end TeamAccess
