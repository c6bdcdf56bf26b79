import TeamAccess.Proofs.Authorization.Stage

/-! # Work on the draft alone

Most operations work on the rows that their session sees: they neither look at what is committed nor
change it. Over other committed rows such an operation does the same, and nothing is committed by
it. Of an operation that does commit, or rolls back when it fails, it is still true that its answer
does not depend on what was committed before.
-/

namespace TeamAccess

/-- What one session sees, over what another one has committed. -/
def Session.over (s t : Session) : Session := { s with durable := t.durable, keys := t.keys }

namespace Action

variable {α β : Type} {s s' : Session}

/-- From a session, neither the committed rows nor the supply of keys play a part. -/
def LocalAt (s : Session) (act : Action α) : Prop :=
  ∀ t : Session, act (s.over t) = match act s with
    | .ok a s' => .ok a (s'.over t)
    | .error f s' => .error f (s'.over t)

/-- Neither the committed rows nor the supply of keys play a part. -/
def Local (act : Action α) : Prop := ∀ s, LocalAt s act

/-- Whatever becomes of an action, it commits nothing. -/
def Pends (act : Action α) : Prop :=
  ∀ st, Ensures (fun s => s.durable = st) act (fun _ s => s.durable = st) fun _ s => s.durable = st

/-- An answer, and what the session sees then, do not depend on what was committed. -/
def Blind (act : Action α) : Prop :=
  ∀ s t a s', act s = .ok a s' → ∃ t', act (s.over t) = .ok a (s'.over t')

/-- What is committed does not change, and answers do not depend on it. -/
structure Tentative (act : Action α) : Prop where
  pends : Pends act
  blind : Blind act

namespace LocalAt

variable {x : Action α}

theorem bind {g : α → Action β} (hx : LocalAt s x)
    (hg : ∀ a s', x s = .ok a s' → LocalAt s' (g a)) : LocalAt s (x >>= g) := by
  intro t
  rw [bind_apply, bind_apply, hx t]
  cases ha : x s with
  | ok a s' => exact hg a s' ha t
  | error f s' => rfl

theorem tryCatch {g : Failure → Action α} (hx : LocalAt s x) (hg : ∀ f, Local (g f)) :
    LocalAt s (tryCatch x g) := by
  intro t
  rw [tryCatch_apply, tryCatch_apply, hx t]
  cases x s with
  | ok a s' => rfl
  | error f s' => exact hg f s' t

end LocalAt

namespace Local

variable {x : Action α}

theorem pure (a : α) : Local (pure a) := fun _ _ => rfl

theorem throw (f : Failure) : Local (throw f : Action α) := fun _ _ => rfl

theorem bind {g : α → Action β} (hx : Local x) (hg : ∀ a, Local (g a)) : Local (x >>= g) :=
  fun s => (hx s).bind fun a s' _ => hg a s'

theorem attempt (call : StoreCall) : Local (attempt call) := by
  intro s t
  obtain ⟨durable, current, outage, keys, events⟩ := s
  cases outage with
  | none => rfl
  | some o =>
    by_cases hc : o.call = call
    · by_cases h0 : o.after = 0 <;> simp [Action.attempt, Session.over, hc, h0]
    · simp [Action.attempt, Session.over, hc]

theorem require (tables : List Table) : Local (require tables) := by
  intro s t
  have seen : (s.over t).current = s.current := rfl
  simp only [Action.require, seen]
  cases tables.find? (· ∈ s.current.missing) <;> rfl

theorem ask (f : Store → α) : Local (ask f) := fun _ _ => rfl

theorem query (tables : List Table) (f : Store → α) : Local (query tables f) :=
  (require tables).bind fun _ => ask f

theorem record (e : Event) : Local (record e) := fun _ _ => rfl

theorem change (tables : List Table) (f : Store → Except StoreFault (α × Store)) :
    Local (change tables f) := by
  refine (require tables).bind fun _ s t => ?_
  simp only [Session.over]
  cases f s.current <;> rfl

theorem update (tables : List Table) (f : Store → Store) : Local (update tables f) :=
  change tables _

theorem probeAll (ps : List Probe) : Local (probeAll ps) := by
  induction ps with
  | nil => exact pure ()
  | cons p ps ih =>
    refine bind ?_ fun _ => ih
    cases p with
    | call c => exact attempt c
    | read tables => exact require tables

/-- What only reads works on the draft alone. -/
theorem of_reads {r : Store → Except Failure α} (h : ∀ st, Reads st x (r st)) : Local x := by
  intro s t
  obtain ⟨ps, ht⟩ := h s.current
  have settled : Local (do Action.probeAll ps; settle (r s.current)) := by
    refine (probeAll ps).bind fun _ => ?_
    cases r s.current with
    | ok a => exact pure a
    | error f => exact throw f
  rw [ht (s.over t) rfl, ht s rfl]
  exact settled s t

theorem of_finds {o : Store → Option α} (h : ∀ st, Finds st x (o st)) : Local x :=
  of_reads fun st => (h st).choose_spec

theorem discard (hx : Local x) : Local (discard x) := by
  rw [discard_eq_bind]
  exact hx.bind fun _ => pure ()

theorem mapM {f : α → Action β} (h : ∀ a, Local (f a)) (xs : List α) : Local (xs.mapM f) := by
  induction xs with
  | nil => exact pure []
  | cons a xs ih =>
    rw [List.mapM_cons]
    exact (h a).bind fun _ => ih.bind fun _ => pure _

theorem foldlM {f : β → α → Action β} (h : ∀ b a, Local (f b a)) (b : β) (xs : List α) :
    Local (xs.foldlM f b) := by
  induction xs generalizing b with
  | nil => exact pure b
  | cons a xs ih =>
    rw [List.foldlM_cons]
    exact (h b a).bind fun b' => ih b'

theorem forM {f : α → Action Unit} (h : ∀ a, Local (f a)) (xs : List α) : Local (xs.forM f) := by
  induction xs with
  | nil => exact pure ()
  | cons a xs ih => exact (h a).bind fun _ => ih

theorem filterM {f : α → Action Bool} (h : ∀ a, Local (f a)) (xs : List α) :
    Local (xs.filterM f) := by
  have collected : ∀ acc, Local (xs.filterAuxM f acc) := by
    induction xs with
    | nil => exact fun acc => pure acc
    | cons a xs ih => exact fun acc => (h a).bind fun b => ih _
  exact (collected []).bind fun _ => pure _

theorem pends (h : Local x) : Pends x := by
  intro st s hs
  have same := h s s
  change x s = _ at same
  revert same
  cases x s with
  | ok a s' =>
    intro same
    injection same with _ same
    rw [same]
    exact hs
  | error f s' =>
    intro same
    injection same with _ same
    rw [same]
    exact hs

theorem blind (h : Local x) : Blind x := by
  intro s t a s' hx
  have same := h s t
  rw [hx] at same
  exact ⟨t, same⟩

end Local

namespace Pends

variable {x : Action α}

theorem bind {g : α → Action β} (hx : Pends x) (hg : ∀ a, Pends (g a)) : Pends (x >>= g) :=
  fun st => Ensures.bind (hx st) fun a => hg a st

theorem tryCatch {g : Failure → Action α} (hx : Pends x) (hg : ∀ f, Pends (g f)) :
    Pends (tryCatch x g) :=
  fun st => Ensures.tryCatch (hx st) fun f => hg f st

/-- A rollback commits nothing either. -/
theorem guarded (hx : Pends x) : Pends (guarded x) := by
  refine hx.tryCatch fun f => ?_
  cases f with
  | store fault => exact fun _ _ hs => hs
  | _ => exact fun _ _ hs => hs

end Pends

namespace Blind

variable {x : Action α}

theorem bind {g : α → Action β} (hx : Blind x) (hg : ∀ a, Blind (g a)) : Blind (x >>= g) := by
  intro s t b s' h
  obtain ⟨a, s₁, h₁, h₂⟩ := of_bind_ok h
  obtain ⟨t₁, h₁⟩ := hx s t a s₁ h₁
  obtain ⟨t₂, h₂⟩ := hg a s₁ t₁ b s' h₂
  exact ⟨t₂, (bind_ok h₁).trans h₂⟩

theorem commit : Blind commit := by
  refine (Local.attempt .commit).blind.bind fun _ s t a s' h => ?_
  cases h
  exact ⟨{ t with durable := s.current }, rfl⟩

theorem guarded (hx : Blind x) : Blind (guarded x) := by
  intro s t a s' h
  have answered : x s = .ok a s' := by
    rw [Action.guarded, tryCatch_apply] at h
    cases hs : x s with
    | ok b s₁ =>
      rw [hs] at h
      exact h
    | error f s₁ =>
      rw [hs] at h
      cases f <;> cases h
  obtain ⟨t', ht⟩ := hx s t a s' answered
  exact ⟨t', guarded_ok ht⟩

theorem discard (hx : Blind x) : Blind (discard x) := by
  rw [discard_eq_bind]
  exact hx.bind fun _ => (Local.pure ()).blind

theorem forM {f : α → Action Unit} (h : ∀ a, Blind (f a)) (xs : List α) : Blind (xs.forM f) := by
  induction xs with
  | nil => exact (Local.pure ()).blind
  | cons a xs ih => exact (h a).bind fun _ => ih

end Blind

namespace Tentative

variable {x : Action α}

theorem bind {g : α → Action β} (hx : Tentative x) (hg : ∀ a, Tentative (g a)) :
    Tentative (x >>= g) :=
  ⟨hx.pends.bind fun a => (hg a).pends, hx.blind.bind fun a => (hg a).blind⟩

theorem guarded (hx : Tentative x) : Tentative (guarded x) := ⟨hx.pends.guarded, hx.blind.guarded⟩

end Tentative

theorem Local.tentative {x : Action α} (h : Local x) : Tentative x := ⟨h.pends, h.blind⟩

end Action

end TeamAccess
