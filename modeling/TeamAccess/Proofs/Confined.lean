import TeamAccess.Proofs.Reading
import TeamAccess.Proofs.Store.Agreement

/-! # Work on the rows of some principals

An action is confined to some principals if two runs of it, on stores that agree on them, cannot be
told apart: they answer or fail alike, record the same events and make the same change to the rows
of these principals, while the rows of all others stay in each store as they were.
-/

namespace TeamAccess

variable {P : PrincipalKind × Uuid → Prop} {s t s' t' : Store}

/-- Two stores `s` and `t` after a change of the rows that some principals own: the two agree on
these, and nobody else's rows have changed in either. -/
structure Store.Parallel (P : PrincipalKind × Uuid → Prop) (s t s' t' : Store) : Prop where
  same : Agree P s' t'
  left : Agree (¬ P ·) s s'
  right : Agree (¬ P ·) t t'

namespace Store.Parallel

theorem refl (h : Agree P s t) : Parallel P s t s t := ⟨h, .refl _ s, .refl _ t⟩

/-- The same change again, if it is about these principals only. -/
theorem map {f : Store → Store} (h : Parallel P s t s' t')
    (same : ∀ s t, Agree P s t → Agree P (f s) (f t)) (other : ∀ s, Agree (¬ P ·) s (f s)) :
    Parallel P s t (f s') (f t') :=
  ⟨same s' t' h.same, h.left.trans (other s'), h.right.trans (other t')⟩

end Store.Parallel

/-- Two sessions without an outage that began on complete stores, recorded the same events, and see
and have committed the same changes. -/
structure Session.Parallel (P : PrincipalKind × Uuid → Prop) (s t : Store) (σ τ : Session) :
    Prop where
  complete : s.missing = []
  left : σ.outage = none
  right : τ.outage = none
  events : τ.events = σ.events
  current : Store.Parallel P s t σ.current τ.current
  durable : Store.Parallel P s t σ.durable τ.durable

namespace Session.Parallel

variable {σ τ : Session}

theorem start (hc : s.missing = []) (h : Store.Agree P s t) :
    Session.Parallel P s t (.start s) (.start t) :=
  ⟨hc, rfl, rfl, rfl, .refl h, .refl h⟩

theorem calm_left (h : Session.Parallel P s t σ τ) : σ.Calm :=
  ⟨h.left, (h.current.left.frozen (·.missing) fun _ _ _ => rfl).trans h.complete⟩

theorem calm_right (h : Session.Parallel P s t σ τ) : τ.Calm :=
  ⟨h.right, (h.current.same.frozen (·.missing) fun _ _ _ => rfl).trans h.calm_left.complete⟩

end Session.Parallel

namespace Action

variable {α β : Type} {Q : α → Prop} {R : β → Prop} {x : Action α}

/-- Two runs end alike: with the same answer or the same failure, in parallel sessions. -/
inductive Alike (P : PrincipalKind × Uuid → Prop) (s t : Store) (Q : α → Prop) :
    EStateM.Result Failure Session α → EStateM.Result Failure Session α → Prop where
  | answers {a : α} {σ τ : Session} : Q a → Session.Parallel P s t σ τ →
      Alike P s t Q (.ok a σ) (.ok a τ)
  | fails {f : Failure} {σ τ : Session} : Session.Parallel P s t σ τ →
      Alike P s t Q (.error f σ) (.error f τ)

/-- Runs in parallel sessions end alike, and every answer satisfies `Q`. -/
def Confines (P : PrincipalKind × Uuid → Prop) (s t : Store) (Q : α → Prop) (act : Action α) :
    Prop :=
  ∀ σ τ, Session.Parallel P s t σ τ → Alike P s t Q (act σ) (act τ)

/-- Runs in parallel sessions end alike. -/
abbrev Confined (P : PrincipalKind × Uuid → Prop) (s t : Store) (act : Action α) : Prop :=
  Confines P s t (fun _ => True) act

namespace Confines

theorem pure {a : α} (h : Q a) : Confines P s t Q (pure a) := fun _ _ hs => .answers h hs

theorem throw (f : Failure) : Confines P s t Q (throw f : Action α) := fun _ _ h => .fails h

theorem bind {g : α → Action β} (hx : Confines P s t Q x)
    (hg : ∀ a, Q a → Confines P s t R (g a)) : Confines P s t R (x >>= g) := by
  intro σ τ h
  rw [bind_apply, bind_apply]
  have hx := hx σ τ h
  revert hx
  generalize x σ = y, x τ = z
  rintro (⟨hq, h⟩ | h)
  · exact hg _ hq _ _ h
  · exact .fails h

theorem confined (hx : Confines P s t Q x) : Confined P s t x := by
  intro σ τ h
  have hx := hx σ τ h
  revert hx
  generalize x σ = y, x τ = z
  rintro (⟨-, h⟩ | h)
  · exact .answers trivial h
  · exact .fails h

/-- What is read of these principals, or belongs to nobody, is the same in both runs. -/
theorem reads {r : Store → Except Failure α}
    (hx : ∀ st, Store.Agree (fun _ => False) s st → Reads st x (r st))
    (hr : ∀ s t, Store.Agree P s t → r t = r s)
    (hQ : ∀ st a, Store.Agree (fun _ => False) s st → r st = .ok a → Q a) :
    Confines P s t Q x := by
  intro σ τ h
  -- whatever has happened in the two sessions, nobody's rows are still those of `s`
  have left : Store.Agree (fun _ => False) s σ.current := h.current.left.imp fun _ => False.elim
  have right : Store.Agree (fun _ => False) s τ.current :=
    left.trans (h.current.same.imp fun _ => False.elim)
  rw [(hx _ left).calm h.calm_left rfl, (hx _ right).calm h.calm_right rfl, hr _ _ h.current.same]
  cases ha : r σ.current with
  | ok a => exact .answers (hQ _ a left ha) h
  | error f => exact .fails h

end Confines

namespace Confined

theorem bind {g : α → Action β} (hx : Confined P s t x) (hg : ∀ a, Confines P s t R (g a)) :
    Confines P s t R (x >>= g) :=
  Confines.bind hx fun a _ => hg a

theorem reads {r : Store → Except Failure α} (hx : ∀ st, Reads st x (r st))
    (hr : ∀ s t, Store.Agree P s t → r t = r s) : Confined P s t x :=
  Confines.reads (fun st _ => hx st) hr fun _ _ _ _ => trivial

/-- What is read in rows that belong to nobody. -/
theorem looks {r : Store → Except Failure α} (hx : ∀ st, Reads st x (r st))
    (hr : ∀ s m g, r { s with memberships := m, userGrants := g } = r s) : Confined P s t x :=
  reads hx fun _ _ h => h.frozen r hr

theorem attempt (call : StoreCall) : Confined P s t (attempt call) :=
  looks (fun _ => .attempt call) fun _ _ _ => rfl

theorem record (e : Event) : Confined P s t (record e) := fun _ _ h =>
  .answers trivial { h with events := congrArg (· ++ [e]) h.events }

theorem rollback : Confined P s t rollback := fun _ _ h =>
  .answers trivial { h with current := h.durable }

theorem commit : Confined P s t commit :=
  (attempt .commit).bind fun _ _ _ h => .answers trivial { h with durable := h.current }

theorem update (tables : List Table) {f : Store → Store}
    (same : ∀ s t, Store.Agree P s t → Store.Agree P (f s) (f t))
    (other : ∀ s, Store.Agree (¬ P ·) s (f s)) : Confined P s t (update tables f) := by
  refine bind (looks (fun _ => .require tables) fun _ _ _ => rfl) fun _ _ _ h => ?_
  exact .answers trivial { h with current := h.current.map same other }

theorem tryCatch {g : Failure → Action α} (hx : Confined P s t x)
    (hg : ∀ f, Confined P s t (g f)) : Confined P s t (tryCatch x g) := by
  intro σ τ h
  rw [tryCatch_apply, tryCatch_apply]
  have hx := hx σ τ h
  revert hx
  generalize x σ = y, x τ = z
  rintro (⟨hq, h⟩ | h)
  · exact .answers hq h
  · exact hg _ _ _ h

theorem guarded (hx : Confined P s t x) : Confined P s t (guarded x) := by
  refine hx.tryCatch fun f => ?_
  cases f with
  | store fault => exact rollback.bind fun _ => .throw _
  | _ => exact .throw _

theorem discard (hx : Confined P s t x) : Confined P s t (discard x) := by
  rw [discard_eq_bind]
  exact hx.bind fun _ => .pure trivial

section Loops

variable {xs : List α}

theorem forM {f : α → Action Unit} (h : ∀ a ∈ xs, Confined P s t (f a)) :
    Confined P s t (xs.forM f) := by
  induction xs with
  | nil => exact .pure trivial
  | cons a xs ih => exact (h a (by simp)).bind fun _ => ih fun b hb => h b (by simp [hb])

theorem mapM {f : α → Action β} (h : ∀ a ∈ xs, Confined P s t (f a)) :
    Confined P s t (xs.mapM f) := by
  induction xs with
  | nil => exact .pure trivial
  | cons a xs ih =>
    rw [List.mapM_cons]
    exact (h a (by simp)).bind fun _ =>
      (ih fun b hb => h b (by simp [hb])).bind fun _ => .pure trivial

theorem filterM {f : α → Action Bool} (h : ∀ a ∈ xs, Confined P s t (f a)) :
    Confined P s t (xs.filterM f) := by
  have collected : ∀ acc, Confined P s t (xs.filterAuxM f acc) := by
    induction xs with
    | nil => exact fun acc => .pure trivial
    | cons a xs ih =>
      exact fun acc => (h a (by simp)).bind fun b => ih (fun c hc => h c (by simp [hc])) _
  exact (collected []).bind fun _ => .pure trivial

end Loops

end Confined

end Action

end TeamAccess
