import TeamAccess.Proofs.Authorization.Stage
import TeamAccess.Proofs.Store.Edges
import TeamAccess.Service.Membership

/-! # Changes that are durable at once

A service that changes memberships leaves nothing uncommitted. In a session that nothing fails in,
what it does is described by its answer, the store that it leaves and the events that it records;
adding or removing a member changes one edge and reports whether it did.
-/

namespace TeamAccess

/-- A session that has committed everything and that no access fails in. -/
def Session.on (st : Store) (keys : KeySupply) (events : List Event) : Session :=
  { durable := st, current := st, keys, events }

open TeamAccess.Action

variable {st : Store} {keys : KeySupply} {events : List Event} {p : PrincipalHandle}
  {r : PrincipalRecord} {team : TeamHandle} {t : Team}

theorem Session.on_calm (h : st.missing = []) : (Session.on st keys events).Calm := ⟨rfl, h⟩

namespace Action

variable {α β : Type} {s : Session}

/-- In a session that has committed everything and that nothing fails in, an action answers, leaves
a store, committed as well, and records some events. -/
def Moves (st : Store) (act : Action α) (a : α) (st' : Store) (notes : List Event) : Prop :=
  ∀ keys events, act (Session.on st keys events) = .ok a (Session.on st' keys (events ++ notes))

namespace Moves

variable {st' st'' : Store} {x : Action α} {a : α} {b : β} {notes more : List Event} {xs : List α}

theorem pure (a : α) : Moves st (pure a) a st [] := by
  intro keys events
  rw [List.append_nil]
  rfl

theorem record (e : Event) : Moves st (record e) () st [e] := fun _ _ => rfl

theorem bind {g : α → Action β} (hx : Moves st x a st' notes) (hg : Moves st' (g a) b st'' more) :
    Moves st (x >>= g) b st'' (notes ++ more) := by
  intro keys events
  rw [bind_ok (hx keys events), hg keys, List.append_assoc]

theorem cast {st₁ : Store} {a₁ : α} (hx : Moves st x a st' notes) (ha : a = a₁) (hs : st' = st₁)
    (he : notes = more) : Moves st x a₁ st₁ more := ha ▸ hs ▸ he ▸ hx

theorem bind_pure (g : α → β) (hx : Moves st x a st' notes) :
    Moves st (x >>= fun a => Pure.pure (g a)) (g a) st' notes :=
  fun keys events => bind_ok (hx keys events)

theorem discard (hx : Moves st x a st' notes) : Moves st (discard x) () st' notes :=
  fun keys events => map_ok (hx keys events)

theorem guarded (hx : Moves st x a st' notes) : Moves st (guarded x) a st' notes :=
  fun keys events => guarded_ok (hx keys events)

theorem caught (hx : Moves st x a st' notes) (g : Failure → Action α) :
    Moves st (tryCatch x g) a st' notes := by
  intro keys events
  rw [tryCatch_apply, hx keys events]

theorem not_rejects {f : Failure} (hx : Moves st x a st' notes) : ¬ Rejects st x f := fun h => by
  have he := (hx {} []).symm.trans (h _ rfl rfl)
  cases he

theorem reads (hm : st.missing = []) (hx : Reads st x (.ok a)) : Moves st x a st [] := by
  intro keys events
  rw [List.append_nil]
  exact hx.calm_ok (Session.on_calm hm)

theorem reads_bind {g : α → Action β} (hm : st.missing = []) (hx : Reads st x (.ok a))
    (hg : Moves st (g a) b st' notes) : Moves st (x >>= g) b st' notes :=
  fun keys events => (bind_ok (hx.calm_ok (Session.on_calm hm))).trans (hg keys events)

theorem records (xs : List α) (event : α → Event) :
    Moves st (xs.forM fun a => Action.record (event a)) () st (xs.map event) := by
  induction xs with
  | nil => exact pure ()
  | cons a xs ih => exact (record (event a)).bind ih

/-- The events of a loop whose steps change the store. -/
def collected (step : Store → α → Store) (note : Store → α → List Event) :
    Store → List α → List Event
  | _, [] => []
  | st, a :: xs => note st a ++ collected step note (step st a) xs

/-- A loop leaves what its steps leave one after the other. -/
theorem forM {f : α → Action Unit} {step : Store → α → Store} {note : Store → α → List Event}
    {I : Store → Prop} (h : ∀ st a, a ∈ xs → I st → Moves st (f a) () (step st a) (note st a))
    (hI : ∀ st a, a ∈ xs → I st → I (step st a)) (hs : I st) :
    Moves st (xs.forM f) () (xs.foldl step st) (collected step note st xs) := by
  induction xs generalizing st with
  | nil => exact pure ()
  | cons a xs ih =>
    refine (h st a (by simp) hs).bind (ih (fun st b hb => h st b (by simp [hb]))
      (fun st b hb => hI st b (by simp [hb])) (hI st a (by simp) hs))

theorem filterM {f : α → Action Bool} {p : α → Bool} {note : α → List Event}
    (h : ∀ a ∈ xs, Moves st (f a) (p a) st (note a)) :
    Moves st (xs.filterM f) (xs.filter p) st (xs.flatMap note) := by
  have kept : ∀ acc, Moves st (xs.filterAuxM f acc) ((xs.filter p).reverse ++ acc) st
      (xs.flatMap note) := by
    induction xs with
    | nil => exact fun acc => pure acc
    | cons a xs ih =>
      intro acc
      have hr := ih (fun b hb => h b (by simp [hb])) (cond (p a) (a :: acc) acc)
      have he : ((a :: xs).filter p).reverse ++ acc =
          (xs.filter p).reverse ++ cond (p a) (a :: acc) acc := by
        cases hp : p a <;> simp [hp]
      rw [he, List.flatMap_cons]
      exact (h a (by simp)).bind hr
  intro keys events
  rw [List.filterM, bind_ok (kept [] keys events)]
  simp

end Moves

theorem attempt_calm (hs : s.Calm) (call : StoreCall) : attempt call s = .ok () s :=
  probe_calm hs (.call call)

theorem update_calm (hs : s.Calm) (tables : List Table) (f : Store → Store) :
    update tables f s = .ok () { s with current := f s.current } := by
  have hq : require tables s = .ok () s := probe_calm hs (.read tables)
  exact bind_ok hq

theorem commit_calm (hs : s.outage = none) : commit s = .ok () { s with durable := s.current } := by
  have ha : attempt .commit s = .ok () s := by simp [attempt, hs]
  rw [commit, bind_ok ha]
  rfl

end Action

namespace Principals

theorem lock_calm {s : Session} (hs : s.Calm) (h : s.current.record? p = some r) :
    lock p s = .ok r s := (lock_reads h).calm_ok hs

theorem reload_reads (h : st.record? p = some r) : Reads st (reload p) (.ok r) :=
  ⟨_, (reload_traces p).cast rfl (by rw [h]; rfl)⟩

theorem target_calm {s : Session} (hs : s.Calm) (h : team.id.bind s.current.teamById? = some t) :
    target team s = .ok t s := by
  rw [(target_reads team).calm hs rfl, h]
  rfl

section

variable (hm : st.missing = []) (hr : st.record? p = some r)

include hm hr

theorem addToTeam_on (ht : team.id.bind st.teamById? = some t) :
    addToTeam p team (Session.on st keys events) =
      .ok (!decide (⟨r.kind, r.id, t.id⟩ ∈ st.memberships))
        { Session.on st keys events with current := st.join ⟨r.kind, r.id, t.id⟩ } := by
  have calm : (Session.on st keys events).Calm := Session.on_calm hm
  have stored := Store.mem_teams_of_bind ht
  rw [addToTeam, bind_ok (attempt_calm calm _), bind_ok (lock_calm calm hr),
    bind_ok (target_calm calm ht), Store.teams_of_record? hr, Store.any_teamsOf stored]
  by_cases he : ⟨r.kind, r.id, t.id⟩ ∈ st.memberships
  · simp [he, Store.join_of_mem, Session.on]
  · simp only [he, decide_false, Bool.false_eq_true, if_false, Bool.not_false]
    rw [bind_ok (update_calm calm _ _)]
    rfl

theorem removeFromTeam_on (hi : team.id = some t.id) (ht : t ∈ st.teams) :
    removeFromTeam p team (Session.on st keys events) =
      .ok (decide (⟨r.kind, r.id, t.id⟩ ∈ st.memberships))
        { Session.on st keys events with current := st.leave ⟨r.kind, r.id, t.id⟩ } := by
  have calm : (Session.on st keys events).Calm := Session.on_calm hm
  rw [removeFromTeam, bind_ok (attempt_calm calm _), bind_ok (lock_calm calm hr)]
  simp only [hi]
  rw [Store.teams_of_record? hr, Store.any_teamsOf ht]
  by_cases he : ⟨r.kind, r.id, t.id⟩ ∈ st.memberships
  · simp only [he, decide_true, Bool.not_true, Bool.false_eq_true, if_false]
    rw [bind_ok (update_calm calm _ _)]
    rfl
  · simp [he, Store.leave_of_not_mem, Session.on]

end

end Principals

namespace MembershipService

theorem committed_on {x : Action Bool} {b : Bool} {st' : Store}
    (h : x (Session.on st keys events) =
      .ok b { Session.on st keys events with current := st' }) :
    guarded (do
      let b ← x
      commit
      return b) (Session.on st keys events) = .ok b (Session.on st' keys events) := by
  refine guarded_ok ?_
  rw [bind_ok h, bind_ok (commit_calm rfl)]
  rfl

section

variable (hm : st.missing = []) (hr : st.record? p = some r)

include hm hr

/-- Adding a member adds the edge for good, and reports whether it was absent. -/
theorem add_moves (ht : team.id.bind st.teamById? = some t) :
    Moves st (add p team) (!decide (⟨r.kind, r.id, t.id⟩ ∈ st.memberships))
      (st.join ⟨r.kind, r.id, t.id⟩)
      [.membership (if ⟨r.kind, r.id, t.id⟩ ∈ st.memberships then .unchanged else .added)
        p.identifier p.kind team.name] := by
  intro keys events
  have calm : (Session.on st keys events).Calm := Session.on_calm hm
  rw [add, bind_ok (attempt_calm calm _),
    bind_ok (committed_on (Principals.addToTeam_on hm hr ht))]
  by_cases he : ⟨r.kind, r.id, t.id⟩ ∈ st.memberships <;> simp [he, bind_apply, Session.on]

/-- Removing a member removes the edge for good, and reports whether it was there. -/
theorem remove_moves (hi : team.id = some t.id) (ht : t ∈ st.teams) :
    Moves st (remove p team) (decide (⟨r.kind, r.id, t.id⟩ ∈ st.memberships))
      (st.leave ⟨r.kind, r.id, t.id⟩)
      [.membership (if ⟨r.kind, r.id, t.id⟩ ∈ st.memberships then .removed else .unchanged)
        p.identifier p.kind team.name] := by
  intro keys events
  have calm : (Session.on st keys events).Calm := Session.on_calm hm
  rw [remove, bind_ok (attempt_calm calm _),
    bind_ok (committed_on (Principals.removeFromTeam_on hm hr hi ht))]
  by_cases he : ⟨r.kind, r.id, t.id⟩ ∈ st.memberships <;> simp [he, bind_apply, Session.on]

end

end MembershipService

end TeamAccess
