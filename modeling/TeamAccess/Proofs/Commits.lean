import TeamAccess.Proofs.Course

/-! # What is committed on the way

An operation may commit several times before it ends. If it records each commit as a change of a
membership, and nothing else as such, then its events tell, wherever it ends, what it has committed:
as many of the states on its course as there are records.
-/

namespace TeamAccess

open TeamAccess.Action

/-- Whether an event records a change of a membership, be it an empty one. -/
def Event.isMembership : Event → Bool
  | .membership .. => true
  | _ => false

/-- Of some states, as many of the first ones are committed, one after the other, as changes of
memberships are recorded. -/
def Session.Counted (s : Session) (states : List Store) (s' : Session) : Prop :=
  ∃ notes, s'.events = s.events ++ notes ∧
    s'.durable = (states.take (notes.countP Event.isMembership)).getLast?.getD s.durable

theorem Session.counted_self (s : Session) (states : List Store) : s.Counted states s :=
  ⟨[], by simp, rfl⟩

namespace Move

variable {s s' : Session} {ms : List Move}

/-- The states that some moves commit. -/
def kept : List Move → Store → List Store
  | [], _ => []
  | .write change :: ms, st => kept ms (change st)
  | .keep _ :: ms, st => st :: kept ms st
  | _ :: ms, st => kept ms st

/-- A commit is recorded as a change of a membership, and nothing else is. -/
def Marked : Move → Prop
  | .keep e => e.isMembership = true
  | .note e => e.isMembership = false
  | _ => True

theorem kept_append (ms ns : List Move) (st : Store) :
    kept (ms ++ ns) st = kept ms st ++ kept ns (rows ms st) := by
  induction ms generalizing st with
  | nil => rfl
  | cons m ms ih =>
    cases m with
    | keep e => exact congrArg _ (ih st)
    | _ => exact ih _

/-- Neither changes rows nor commits. -/
def Passive : Move → Prop
  | .access _ => True
  | .note e => e.isMembership = false
  | _ => False

theorem Passive.marked {m : Move} (h : m.Passive) : m.Marked := by
  cases m with
  | access p => trivial
  | note e => exact h
  | _ => exact h.elim

theorem rows_passive (h : ∀ m ∈ ms, m.Passive) (st : Store) : rows ms st = st := by
  induction ms with
  | nil => rfl
  | cons m ms ih =>
    have rest := ih fun m hm => h m (by simp [hm])
    have here := h m (by simp)
    cases m with
    | write change => exact here.elim
    | _ => exact rest

theorem kept_passive (h : ∀ m ∈ ms, m.Passive) (st : Store) : kept ms st = [] := by
  induction ms with
  | nil => rfl
  | cons m ms ih =>
    have rest := ih fun m hm => h m (by simp [hm])
    have here := h m (by simp)
    cases m with
    | access p => exact rest
    | note e => exact rest
    | _ => exact here.elim

theorem passive_reading {ps : List Probe} {es : List Event}
    (h : ∀ e ∈ es, e.isMembership = false) :
    ∀ m ∈ ps.map Move.access ++ es.map Move.note, m.Passive := by
  intro m hm
  rcases List.mem_append.mp hm with hm | hm
  · obtain ⟨p, -, rfl⟩ := List.mem_map.mp hm
    trivial
  · obtain ⟨e, hin, rfl⟩ := List.mem_map.mp hm
    exact h e hin

/-- Wherever moves end, the records tell what is committed. -/
theorem follow_counted (h : ∀ m ∈ ms, m.Marked) (s : Session) :
    s.Counted (kept ms s.current) (left (follow ms) s) := by
  induction ms generalizing s with
  | nil => exact s.counted_self []
  | cons m ms ih =>
    have rest := ih fun m hm => h m (by simp [hm])
    have step {s' : Session} (hm : m.make s = .ok () s') :
        left (follow (m :: ms)) s = left (follow ms) s' := by
      simp only [left, follow, bind_ok hm]
    have marked := h m (by simp)
    cases m with
    | access p =>
      rcases probe_cases p s with ⟨f, hp, -⟩ | ⟨o, hp, -⟩
      · have stops : left (follow (.access p :: ms)) s = s := by
          have hm : (Move.access p).make s = .error f s := hp
          simp only [left, follow, bind_error hm]
        rw [stops]
        exact s.counted_self _
      · rw [step hp]
        exact rest { s with outage := o }
    | write change =>
      rw [step rfl]
      exact rest { s with current := change s.current }
    | keep e =>
      rw [step rfl]
      obtain ⟨notes, he, hd⟩ := rest { s with durable := s.current, events := s.events ++ [e] }
      refine ⟨e :: notes, by simpa using he, ?_⟩
      rw [hd, List.countP_cons_of_pos marked]
      simp only [kept, List.take_succ_cons, List.getLast?_cons, Option.getD_some]
    | note e =>
      rw [step rfl]
      obtain ⟨notes, he, hd⟩ := rest { s with events := s.events ++ [e] }
      have unmarked : ¬ e.isMembership = true := by simp [show e.isMembership = false from marked]
      refine ⟨e :: notes, by simpa using he, ?_⟩
      rw [hd, List.countP_cons_of_neg unmarked]
      rfl

end Move

namespace Plan

variable {α β : Type} {st st' st'' : Store} {plan : Plan α} {next : α → Plan β} {a : α} {b : β}
  {states states' : List Store}

theorem bind_of_ok (h : (plan st).result = .ok a) (next : α → Plan β) :
    (plan >>= next) st =
      ⟨(plan st).moves ++ (next a (Move.rows (plan st).moves st)).moves,
        (next a (Move.rows (plan st).moves st)).result⟩ := by
  change plan.andThen next st = _
  simp only [andThen, h]

theorem bind_of_error {f : Failure} (h : (plan st).result = .error f) (next : α → Plan β) :
    (plan >>= next) st = ⟨(plan st).moves, .error f⟩ := by
  change plan.andThen next st = _
  simp only [andThen, h]

/-- From given rows, a plan neither changes anything nor commits. -/
def Passive (plan : Plan α) (st : Store) : Prop := ∀ m ∈ (plan st).moves, m.Passive

theorem Passive.pure (a : α) : Passive (pure a) st := fun _ h => absurd h List.not_mem_nil

theorem Passive.reads (ps : Store → List Probe) (r : Store → Except Failure α) :
    Passive (Plan.reads ps r) st := by
  intro m hm
  obtain ⟨p, -, rfl⟩ := List.mem_map.mp hm
  trivial

theorem Passive.access (p : Probe) : Passive (moves [.access p]) st := by
  simp [Passive, moves, Move.Passive]

theorem Passive.note {e : Event} (h : e.isMembership = false) : Passive (moves [.note e]) st := by
  simpa [Passive, moves, Move.Passive] using h

/-- From given rows, a plan commits some states and records each as a change of a membership. -/
structure Commits (plan : Plan α) (st : Store) (states : List Store) : Prop where
  marked : ∀ m ∈ (plan st).moves, m.Marked
  kept : Move.kept (plan st).moves st = states

theorem Passive.commits (h : plan.Passive st) : plan.Commits st [] :=
  ⟨fun m hm => (h m hm).marked, Move.kept_passive h st⟩

/-- From given rows, a plan gives up before it changes or commits anything. -/
structure Stops (plan : Plan α) (st : Store) : Prop where
  passive : plan.Passive st
  fails : ∃ f, (plan st).result = .error f

namespace Stops

theorem fail (f : Failure) : Stops (fail f : Plan α) st :=
  ⟨fun _ h => absurd h List.not_mem_nil, f, rfl⟩

theorem commits (h : plan.Stops st) : plan.Commits st [] := h.passive.commits

theorem left (h : plan.Stops st) : (plan >>= next).Stops st := by
  obtain ⟨f, hf⟩ := h.fails
  constructor
  · rw [Passive, bind_of_error hf]
    exact h.passive
  · exact ⟨f, by rw [bind_of_error hf]⟩

theorem right (hp : plan.Passive st) (ha : (plan st).result = .ok a) (h : (next a).Stops st) :
    (plan >>= next).Stops st := by
  obtain ⟨f, hf⟩ := h.fails
  have whole := bind_of_ok ha next
  rw [Move.rows_passive hp] at whole
  constructor
  · rw [Passive, whole]
    intro m hm
    rcases List.mem_append.mp hm with hm | hm
    · exact hp m hm
    · exact h.passive m hm
  · exact ⟨f, by rw [whole, hf]⟩

end Stops

/-- From given rows, a plan succeeds and leads to other rows by way of the states that it commits.
-/
structure Does (plan : Plan α) (st : Store) (a : α) (st' : Store) (states : List Store) : Prop
    extends plan.Commits st states where
  result : (plan st).result = .ok a
  rows : Move.rows (plan st).moves st = st'

namespace Does

theorem bind (hp : Does plan st a st' states)
    (hn : Does (next a) st' b st'' states') :
    Does (plan >>= next) st b st'' (states ++ states') := by
  have whole := bind_of_ok hp.result next
  rw [hp.rows] at whole
  refine ⟨⟨?_, ?_⟩, ?_, ?_⟩ <;> rw [whole]
  · intro m hm
    rcases List.mem_append.mp hm with hm | hm
    · exact hp.marked m hm
    · exact hn.marked m hm
  · rw [Move.kept_append, hp.rows, hp.kept, hn.kept]
  · exact hn.result
  · rw [Move.rows_append, hp.rows, hn.rows]

theorem cast (hp : Does plan st a st' states) (hs : states = states') :
    Does plan st a st' states' := hs ▸ hp

/-- What only accesses the store and records events of its own commits nothing. -/
theorem passive (hm : plan.Passive st) (hr : (plan st).result = .ok a) :
    Does plan st a st [] :=
  ⟨hm.commits, hr, Move.rows_passive hm st⟩

theorem pure (a : α) : Does (pure a) st a st [] := passive (.pure a) rfl

theorem reads {ps : Store → List Probe} {r : Store → Except Failure α} (h : r st = .ok a) :
    Does (Plan.reads ps r) st a st [] := passive (.reads ps r) h

theorem note {e : Event} (h : e.isMembership = false) : Does (moves [.note e]) st () st [] :=
  passive (.note h) rfl

theorem access (p : Probe) : Does (moves [.access p]) st () st [] := passive (.access p) rfl

theorem update (tables : List Table) (change : Store → Store) :
    Does (update tables change) st () (change st) [] :=
  ⟨⟨by simp [Plan.update, moves, Move.Marked], rfl⟩, rfl, rfl⟩

theorem keep {e : Event} (h : e.isMembership = true) : Does (keep e) st () st [st] :=
  ⟨⟨by simpa [Plan.keep, moves, Move.Marked] using h, rfl⟩, rfl, rfl⟩

/-- The states that changes lead through, one after the other. -/
theorem forM {next : α → Plan Unit} {step : Store → α → Store} {I : Store → Prop} {xs : List α}
    (h : ∀ st a, a ∈ xs → I st → Does (next a) st () (step st a) [step st a])
    (hI : ∀ st a, a ∈ xs → I st → I (step st a)) (hs : I st) :
    Does (xs.forM next) st () (xs.foldl step st) (xs.scanl step st).tail := by
  induction xs generalizing st with
  | nil => exact pure ()
  | cons a xs ih =>
    have rest := ih (fun st b hb => h st b (by simp [hb])) (fun st b hb => hI st b (by simp [hb]))
      (hI st a (by simp) hs)
    refine ((h st a (by simp) hs).bind rest).cast ?_
    cases xs <;> simp [List.scanl_cons]

end Does

end Plan

/-- Wherever an action ends that follows a plan, the records tell what is committed. -/
theorem Action.Covers.counted {α : Type} {act : Action α} {plan : Plan α} {s : Session}
    {states : List Store} (h : Covers act plan) (hp : plan.Commits s.current states) :
    s.Counted states (left act s) := by
  have same {x : Action α} :
      (left x s).events = (left (Action.guarded x) s).events ∧
        (left x s).durable = (left (Action.guarded x) s).durable := by
    unfold left
    cases hx : x s with
    | ok a s' => simp [guarded_ok hx]
    | error f s' =>
      simp only [Decision.guarded_error hx]
      cases f <;> exact ⟨rfl, rfl⟩
  have settled : left (plan s.current).run s = left (Move.follow (plan s.current).moves) s := by
    unfold left Course.run
    rw [bind_apply]
    cases Move.follow (plan s.current).moves s with
    | ok a s' => cases (plan s.current).result <;> rfl
    | error f s' => rfl
  have followed := Move.follow_counted hp.marked s
  rw [hp.kept, ← settled] at followed
  obtain ⟨notes, he, hd⟩ := followed
  refine ⟨notes, ?_, ?_⟩
  · rw [same.1, left, h s, ← left, ← same.1, he]
  · rw [same.2, left, h s, ← left, ← same.2, hd]

end TeamAccess
