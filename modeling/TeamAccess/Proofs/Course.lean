import TeamAccess.Proofs.Authorization.Decision

/-! # The course of an operation

What an operation does to its session is a list of moves, known beforehand from the rows: accesses
to the store, changes of rows, commits and events. Only an access can fail, and the first one that
does ends the course.
-/

namespace TeamAccess

/-- One of the things that an operation does to its session; a commit comes with the event that
records it. -/
inductive Move where
  | access (probe : Probe)
  | write (change : Store → Store)
  | keep (event : Event)
  | note (event : Event)

/-- What an operation does, and how it ends if no access fails. -/
structure Course (α : Type) where
  moves : List Move
  result : Except Failure α

/-- What an operation does, depending on the rows that it starts from. -/
def Plan (α : Type) : Type := Store → Course α

open TeamAccess.Action

variable {α β : Type} {s s' : Session} {ms ns : List Move} {f : Failure}

namespace Move

/-- Makes a move. -/
def make : Move → Action Unit
  | .access p => probe p
  | .write change => modify fun s => { s with current := change s.current }
  | .keep event => do
    modify fun s => { s with durable := s.current }
    record event
  | .note event => record event

/-- Makes some moves. -/
def follow : List Move → Action Unit
  | [] => pure ()
  | m :: ms => do
    m.make
    follow ms

/-- The rows after some moves. -/
def rows : List Move → Store → Store
  | [], st => st
  | .write change :: ms, st => rows ms (change st)
  | _ :: ms, st => rows ms st

/-- Making some moves, an access fails; `s'` is the session at that point. -/
def Meets (s : Session) (ms : List Move) (f : Failure) (s' : Session) : Prop :=
  ∃ before p after, ms = before ++ .access p :: after ∧ follow before s = .ok () s' ∧
    probe p s' = .error f s'

theorem follow_append (ms ns : List Move) : follow (ms ++ ns) = (do follow ms; follow ns) := by
  induction ms with
  | nil => rfl
  | cons m ms ih => simp only [List.cons_append, follow, ih, bind_assoc]

theorem rows_append (ms ns : List Move) (st : Store) :
    rows (ms ++ ns) st = rows ns (rows ms st) := by
  induction ms generalizing st with
  | nil => rfl
  | cons m ms ih => cases m <;> exact ih _

/-- A move fails only if it is an access, and does not change the session then. -/
theorem make_cases (m : Move) (s : Session) :
    (∃ p f, m = .access p ∧ probe p s = .error f s) ∨
    ∃ s', m.make s = .ok () s' ∧ ∀ ms, rows ms s'.current = rows (m :: ms) s.current := by
  cases m with
  | access p =>
    rcases probe_cases p s with ⟨f, hp, -⟩ | ⟨o, hp, -⟩
    · exact .inl ⟨p, f, rfl, hp⟩
    · exact .inr ⟨_, hp, fun _ => rfl⟩
  | write change => exact .inr ⟨_, rfl, fun _ => rfl⟩
  | keep event => exact .inr ⟨_, rfl, fun _ => rfl⟩
  | note event => exact .inr ⟨_, rfl, fun _ => rfl⟩

theorem follow_of_meets (h : Meets s ms f s') : follow ms s = .error f s' := by
  obtain ⟨before, p, after, rfl, hb, hp⟩ := h
  rw [follow_append, bind_ok hb]
  exact bind_error hp

/-- Moves are all made, or end where an access fails. -/
theorem follow_cases (ms : List Move) (s : Session) :
    (∃ f s', Meets s ms f s' ∧ follow ms s = .error f s') ∨
    ∃ s', follow ms s = .ok () s' ∧ s'.current = rows ms s.current := by
  induction ms generalizing s with
  | nil => exact .inr ⟨s, rfl, rfl⟩
  | cons m ms ih =>
    rcases make_cases m s with ⟨p, f, rfl, hp⟩ | ⟨t, hm, hr⟩
    · have met : Meets s (.access p :: ms) f s := ⟨[], p, ms, rfl, rfl, hp⟩
      exact .inl ⟨f, s, met, follow_of_meets met⟩
    · rcases ih t with ⟨f, s', hmet, hf⟩ | ⟨s', hf, hc⟩
      · obtain ⟨before, p, after, rfl, hb, hp⟩ := hmet
        exact .inl ⟨f, s', ⟨m :: before, p, after, rfl, (bind_ok hm).trans hb, hp⟩,
          (bind_ok hm).trans hf⟩
      · exact .inr ⟨s', (bind_ok hm).trans hf, hc.trans (hr ms)⟩

theorem follow_accesses (ps : List Probe) : follow (ps.map .access) = probeAll ps := by
  induction ps with
  | nil => rfl
  | cons p ps ih =>
    rw [List.map_cons, follow, probeAll, ih]
    rfl

theorem follow_notes {α : Type} (xs : List α) (event : α → Event) :
    follow (xs.map fun a => .note (event a)) = xs.forM fun a => record (event a) := by
  induction xs with
  | nil => rfl
  | cons a xs ih =>
    rw [List.map_cons, follow, ih]
    rfl

theorem rows_notes (es : List Event) (st : Store) : rows (es.map .note) st = st := by
  induction es with
  | nil => rfl
  | cons e es ih => exact ih

theorem rows_accesses (ps : List Probe) (st : Store) : rows (ps.map .access) st = st := by
  induction ps with
  | nil => rfl
  | cons p ps ih => exact ih

end Move

/-- Follows a course to its end. -/
def Course.run (c : Course α) : Action α := do
  Move.follow c.moves
  settle c.result

namespace Plan

/-- Does one thing and then, from the rows that it leaves, another one. -/
def andThen (x : Plan α) (g : α → Plan β) : Plan β := fun st =>
  match (x st).result with
  | .ok a =>
    let rest := g a (Move.rows (x st).moves st)
    ⟨(x st).moves ++ rest.moves, rest.result⟩
  | .error f => ⟨(x st).moves, .error f⟩

instance : Monad Plan where
  pure a := fun _ => ⟨[], .ok a⟩
  bind := andThen

/-- Gives up. -/
def fail (f : Failure) : Plan α := fun _ => ⟨[], .error f⟩

/-- Reads what the rows determine. -/
def reads (ps : Store → List Probe) (r : Store → Except Failure α) : Plan α := fun st =>
  ⟨(ps st).map .access, r st⟩

/-- Makes moves that cannot fail. -/
def moves (ms : List Move) : Plan Unit := fun _ => ⟨ms, .ok ()⟩

/-- Changes one family of rows. -/
def update (tables : List Table) (change : Store → Store) : Plan Unit :=
  moves [.access (.read tables), .write change]

/-- Commits and records. -/
def keep (event : Event) : Plan Unit := moves [.access (.call .commit), .keep event]

variable {x : Plan α} {g : α → Plan β}

/-- What is met in the first part of a plan is met in the plan. -/
theorem meets_left (h : Move.Meets s (x s.current).moves f s') :
    Move.Meets s ((x >>= g) s.current).moves f s' := by
  obtain ⟨before, p, after, hm, hb, hp⟩ := h
  change Move.Meets s (x.andThen g s.current).moves f s'
  unfold andThen
  cases (x s.current).result with
  | error e => exact ⟨before, p, after, hm, hb, hp⟩
  | ok a =>
    refine ⟨before, p, after ++ (g a (Move.rows (x s.current).moves s.current)).moves, ?_, hb, hp⟩
    rw [← List.cons_append, ← List.append_assoc, ← hm]

/-- What is met in the second part of a plan is met in the plan if the first part succeeds. -/
theorem meets_right {a : α} {t : Session} (hr : (x s.current).result = .ok a)
    (hx : Move.follow (x s.current).moves s = .ok () t)
    (h : Move.Meets t (g a t.current).moves f s') :
    Move.Meets s ((x >>= g) s.current).moves f s' := by
  obtain ⟨before, p, after, hm, hb, hp⟩ := h
  have rows : t.current = Move.rows (x s.current).moves s.current := by
    rcases Move.follow_cases (x s.current).moves s with ⟨f, s', -, hf⟩ | ⟨s', hf, hc⟩
    · cases hf.symm.trans hx
    · cases hf.symm.trans hx
      exact hc
  change Move.Meets s (x.andThen g s.current).moves f s'
  unfold andThen
  rw [hr, ← rows]
  refine ⟨(x s.current).moves ++ before, p, after, ?_, ?_, hp⟩
  · simp only [hm, List.append_assoc]
  · rw [Move.follow_append, bind_ok hx, hb]

end Plan

/-- Up to how a failure of the store is reported, an action follows a plan. -/
def Action.Covers (act : Action α) (plan : Plan α) : Prop :=
  ∀ s, guarded act s = guarded (plan s.current).run s

namespace Action.Covers

open Move

variable {x : Action α} {plan : Plan α}

theorem pure (a : α) : Covers (pure a) (pure a : Plan α) := fun _ => rfl

theorem throw (f : Failure) : Covers (throw f : Action α) (Plan.fail f) := fun _ => rfl

theorem record (e : Event) : Covers (record e) (Plan.moves [.note e]) := fun _ => rfl

theorem bind {g : α → Action β} {next : α → Plan β} (hx : Covers x plan)
    (hg : ∀ a, Covers (g a) (next a)) : Covers (x >>= g) (plan >>= next) := by
  intro s
  -- what ends the first part ends both sides alike
  have ended {f : Failure} {σ : Session} (hr : (plan s.current).run s = .error f σ)
      (hb : ((plan >>= next) s.current).run s = .error f σ) :
      guarded (x >>= g) s = guarded ((plan >>= next) s.current).run s := by
    rw [guarded_bind, bind_apply, hx s, Decision.guarded_error hr, Decision.guarded_error hb]
  have unfolded : (plan >>= next) s.current = plan.andThen next s.current := rfl
  rw [unfolded] at ended ⊢
  unfold Plan.andThen at ended ⊢
  unfold Course.run at ended ⊢
  cases hres : (plan s.current).result with
  | error f =>
    simp only [hres] at ended ⊢
    rcases follow_cases (plan s.current).moves s with ⟨f', σ, -, hf⟩ | ⟨σ, hf, -⟩
    · exact ended (bind_error hf) (bind_error hf)
    · exact ended (bind_ok hf) (bind_ok hf)
  | ok a =>
    simp only [hres] at ended ⊢
    rw [follow_append, bind_assoc] at ended ⊢
    rcases follow_cases (plan s.current).moves s with ⟨f', σ, -, hf⟩ | ⟨σ, hf, hc⟩
    · exact ended (bind_error hf) (bind_error hf)
    · have first : guarded x s = .ok a σ := by
        rw [hx s, Course.run, hres]
        exact guarded_ok (bind_ok hf)
      rw [guarded_bind, bind_ok first, hg a σ, guarded_bind, bind_ok (guarded_ok hf), hc]
      rfl

theorem guarded (hx : Covers x plan) : Covers (guarded x) plan := by
  intro s
  rw [guarded_guarded, hx s]

theorem reads {ps : Store → List Probe} {r : Store → Except Failure α}
    (h : ∀ st, Traces st x (ps st) (r st)) : Covers x (Plan.reads ps r) := by
  intro s
  refine guarded_congr ((h s.current s rfl).trans ?_)
  simp only [Plan.reads, Course.run, follow_accesses]

theorem cast {plan' : Plan α} (hx : Covers x plan) (h : plan = plan') : Covers x plan' := h ▸ hx

theorem moves {act : Action Unit} {ms : List Move} (h : act = follow ms) :
    Covers act (Plan.moves ms) := by
  intro s
  have whole : (Plan.moves ms s.current).run = follow ms := by
    simp only [Plan.moves, Course.run, settle, bind_pure_unit]
  rw [whole, h]

theorem attempt (call : StoreCall) :
    Covers (Action.attempt call) (Plan.moves [.access (.call call)]) :=
  moves (by simp only [follow, make, probe, bind_pure_unit])

theorem update (tables : List Table) (f : Store → Store) :
    Covers (Action.update tables f) (Plan.moves [.access (.read tables), .write f]) := by
  refine moves ?_
  simp only [follow, make, probe, bind_pure_unit]
  rfl

theorem discard (hx : Covers x plan) : Covers (discard x) (plan >>= fun _ => Pure.pure ()) := by
  rw [discard_eq_bind]
  exact hx.bind fun _ => pure ()

/-- What is written under a guard, committed and recorded is kept in one move. -/
theorem kept {event : α → Event} (hx : Covers x plan) :
    Covers (do
      let a ← Action.guarded (do
        let a ← x
        commit
        return a)
      Action.record (event a)
      return a) (do
        let a ← plan
        Plan.moves [.access (.call .commit), .keep (event a)]
        return a) := by
  have once : ∀ s, Action.guarded (do
      let a ← Action.guarded (do
        let a ← x
        commit
        return a)
      Action.record (event a)
      return a) s = Action.guarded (do
        let a ← x
        commit
        Action.record (event a)
        return a) s := by
    intro s
    rw [guarded_bind, guarded_guarded, ← guarded_bind]
    simp only [bind_assoc, pure_bind]
  have saved (a : α) : Covers (do
      commit
      Action.record (event a)
      return a) (do
        Plan.moves [.access (.call .commit), .keep (event a)]
        return a) := by
    have committed : (do
        commit
        Action.record (event a)) = follow [.access (.call .commit), .keep (event a)] := by
      simp only [follow, make, probe, commit, bind_pure_unit, bind_assoc]
    rw [← bind_assoc]
    exact (moves committed).bind fun _ => pure a
  exact fun s => (once s).trans (hx.bind saved s)

theorem forM {f : β → Action Unit} {plan : β → Plan Unit} (h : ∀ b, Covers (f b) (plan b))
    (xs : List β) : Covers (xs.forM f) (xs.forM plan) := by
  induction xs with
  | nil => exact pure ()
  | cons b xs ih => exact (h b).bind fun _ => ih

/-- A filter whose tests change no rows. -/
theorem filterM {f : β → Action Bool} {ms : Store → β → List Move} {p : Store → β → Bool}
    (h : ∀ b, Covers (f b) fun st => ⟨ms st b, .ok (p st b)⟩)
    (hr : ∀ st b, rows (ms st b) st = st) (xs : List β) :
    Covers (xs.filterM f) fun st => ⟨xs.flatMap (ms st), .ok (xs.filter (p st))⟩ := by
  have collected : ∀ acc, Covers (xs.filterAuxM f acc) fun st =>
      ⟨xs.flatMap (ms st), .ok ((xs.filter (p st)).reverse ++ acc)⟩ := by
    induction xs with
    | nil => exact fun acc => pure acc
    | cons b xs ih =>
      intro acc
      refine ((h b).bind fun kept => ih (cond kept (b :: acc) acc)).cast ?_
      funext st
      change Plan.andThen _ _ st = _
      cases hp : p st b <;> simp [Plan.andThen, hr, hp]
  refine ((collected []).bind fun _ => pure _).cast ?_
  funext st
  change Plan.andThen _ _ st = _
  simp [Plan.andThen, Pure.pure]

end Action.Covers

end TeamAccess
