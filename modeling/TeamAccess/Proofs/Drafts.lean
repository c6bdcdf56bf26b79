import TeamAccess.Proofs.Service.Membership

/-! # Drafts

What an operation changes is a draft until it is committed. If nothing fails from outside, an
operation that fails before it commits leaves the committed rows as they were; so one that cannot
fail once it has committed either leaves its change as a whole or leaves nothing.
-/

namespace TeamAccess

/-- A session without an outage that has committed `st` and works on `rows`. -/
structure Session.Drafting (st rows : Store) (s : Session) : Prop where
  outage : s.outage = none
  durable : s.durable = st
  current : s.current = rows

theorem Session.Drafting.eq_on {st : Store} {s : Session} (h : s.Drafting st st) :
    s = Session.on st s.keys s.events := by
  obtain ⟨durable, current, outage, keys, events⟩ := s
  obtain ⟨ho, hd, hc⟩ := h
  dsimp only at ho hd hc
  subst ho hd hc
  rfl

theorem Session.Drafting.calm {st rows : Store} {s : Session} (h : s.Drafting st rows)
    (hm : rows.missing = []) : s.Calm := ⟨h.outage, h.current ▸ hm⟩

namespace Action

variable {α β : Type} {st rows : Store}

/-- From the draft `rows` of `st`, an answer satisfies `R` and a failure leaves `st` committed. -/
def Spares (st rows : Store) (act : Action α) (R : α → Session → Prop) : Prop :=
  Ensures (Session.Drafting st rows) act R fun _ s => s.durable = st

/-- An answer leaves another draft, with `Q`. -/
abbrev Drafts (st rows : Store) (act : Action α) (Q : α → Store → Prop) : Prop :=
  Spares st rows act fun a s => ∃ rows', s.Drafting st rows' ∧ Q a rows'

/-- An answer leaves a store committed, with `Q`. -/
abbrev Saves (st rows : Store) (act : Action α) (Q : α → Store → Prop) : Prop :=
  Spares st rows act fun a s => ∃ st', s.Drafting st' st' ∧ Q a st'

/-- An answer leaves the draft as it was. -/
abbrev Rests (st rows : Store) (act : Action α) : Prop :=
  Spares st rows act fun _ s => s.Drafting st rows

/-- Where everything is committed, an action answers and leaves everything committed, with `Q`. -/
def Closes (st : Store) (act : Action α) (Q : α → Store → Prop) : Prop :=
  Ensures (Session.Drafting st st) act (fun a s => ∃ st', s.Drafting st' st' ∧ Q a st')
    fun _ _ => False

namespace Spares

variable {x : Action α} {R R' : α → Session → Prop}

theorem throw (f : Failure) : Spares st rows (throw f : Action α) R :=
  Ensures.throw fun _ hs => hs.durable

theorem imp (h : Spares st rows x R) (hR : ∀ a s, R a s → R' a s) : Spares st rows x R' :=
  Ensures.consequence h (fun _ => id) hR fun _ _ => id

/-- What is looked up in the draft is there, or the action fails. -/
theorem find {o : Option α} {g : α → Action β} {R : β → Session → Prop} (hx : Finds rows x o)
    (hg : ∀ a ∈ o, Spares st rows (g a) R) : Spares st rows (x >>= g) R := by
  intro s hs
  obtain ⟨f, hr⟩ := hx
  rw [← hs.current] at hr
  rw [bind_apply]
  rcases hr.cases with ⟨f', o', he⟩ | ⟨a, o', ha, hn, he⟩
  · rw [he]
    exact hs.durable
  · rw [he]
    refine hg a ?_ _ ⟨hn hs.outage, hs.durable, hs.current⟩
    cases o with
    | none => cases ha
    | some b => exact congrArg some (Except.ok.inj ha)

/-- What is read in the draft is what the rows determine. -/
theorem read {a : α} {g : α → Action β} {R : β → Session → Prop} (hx : Reads rows x (.ok a))
    (hg : Spares st rows (g a) R) : Spares st rows (x >>= g) R :=
  .find (.reads hx) fun _ he => Option.some.inj he ▸ hg

end Spares

theorem Spares.guarded {x : Action α} {R : α → Session → Prop} (hx : Spares st rows x R) :
    Spares st rows (guarded x) R := by
  refine Ensures.tryCatch hx fun f => ?_
  cases f with
  | store fault => exact fun _ hs => hs
  | _ => exact fun _ hs => hs

theorem Spares.and_yields {x : Action α} {R : α → Session → Prop} {Q : α → Prop}
    (hx : Spares st rows x R) (hy : Yields (fun _ => True) (fun _ => True) Q x) :
    Spares st rows x fun a s => R a s ∧ Q a := by
  intro s hs
  have h := hx s hs
  have hq := hy s ⟨trivial, trivial, fun _ _ => trivial⟩
  revert h hq
  cases x s with
  | ok a s' => exact fun h hq => ⟨h, hq.2⟩
  | error f s' => exact fun h _ => h

/-- A failure that is reported as another one is a failure still. -/
theorem Spares.rethrow {x : Action α} {g : Failure → Action α} {R : α → Session → Prop}
    (hx : Spares st rows x R) (hg : ∀ f s, ∃ f', g f s = .error f' s) :
    Spares st rows (tryCatch x g) R := by
  refine Ensures.tryCatch hx fun f s hs => ?_
  obtain ⟨f', he⟩ := hg f s
  rw [he]
  exact hs

namespace Rests

variable {x : Action α}

theorem pure (a : α) : Rests st rows (pure a) := Ensures.pure fun _ hs => hs

theorem bind {g : α → Action β} {R : β → Session → Prop} (hx : Rests st rows x)
    (hg : ∀ a, Spares st rows (g a) R) : Spares st rows (x >>= g) R :=
  Ensures.bind hx fun a => hg a

theorem of_finds {o : Option α} (hx : Finds rows x o) : Rests st rows x := by
  rw [← bind_pure x]
  exact .find hx fun a _ => pure a

/-- Where everything is committed, an action that answers and changes nothing leaves it so. -/
theorem of_calm (hm : st.missing = []) {a : α}
    (h : ∀ s : Session, s.Calm → s.current = st → x s = .ok a s) : Rests st st x := by
  intro s hs
  rw [h s (hs.calm hm) hs.current]
  exact hs

end Rests

/-- What keeps the rows as they are leaves no draft. -/
theorem Spares.of_keeps {x : Action α} (h : Keeps (· = st) (fun _ => True) x) :
    Spares st st x fun _ s => s.durable = st ∧ s.current = st := by
  intro s hs
  have hk := h s ⟨hs.durable, hs.current, fun _ _ => trivial⟩
  revert hk
  cases x s with
  | ok a s' => exact fun hk => ⟨hk.1.durable, hk.1.current⟩
  | error f s' => exact fun hk => hk.1.durable

namespace Drafts

variable {x : Action α} {Q : α → Store → Prop}

theorem pure {a : α} (h : Q a rows) : Drafts st rows (pure a) Q :=
  Ensures.pure fun _ hs => ⟨rows, hs, h⟩

theorem bind {g : α → Action β} {R : β → Session → Prop} (hx : Drafts st rows x Q)
    (hg : ∀ a rows', Q a rows' → Spares st rows' (g a) R) : Spares st rows (x >>= g) R :=
  Ensures.bind hx fun a s ⟨rows', hs, hq⟩ => hg a rows' hq s hs

theorem bind_pure (g : α → β) (hx : Drafts st rows x Q) :
    Drafts st rows (do return g (← x)) fun b rows' => ∃ a, b = g a ∧ Q a rows' :=
  hx.bind fun a _ hq => Drafts.pure ⟨a, rfl, hq⟩

theorem imp {Q' : α → Store → Prop} (hx : Drafts st rows x Q)
    (h : ∀ a rows', Q a rows' → Q' a rows') : Drafts st rows x Q' :=
  Spares.imp hx fun a _ ⟨rows', hs, hq⟩ => ⟨rows', hs, h a rows' hq⟩

theorem discard (hx : Drafts st rows x Q) :
    Drafts st rows (discard x) fun _ rows' => ∃ a, Q a rows' := by
  intro s hs
  have he : (Functor.discard x : Action Unit) s = (Function.const α () <$> x) s := rfl
  rw [he, map_apply]
  have h := hx s hs
  revert h
  cases x s with
  | ok a s' => exact fun ⟨rows', hs', hq⟩ => ⟨rows', hs', a, hq⟩
  | error f s' => exact id

theorem newKey : Drafts st rows newKey fun _ rows' => rows' = rows :=
  fun _ hs => ⟨rows, ⟨hs.outage, hs.durable, hs.current⟩, rfl⟩

/-- A change leaves what it leads to, or breaks a rule and leaves the draft. -/
theorem change (tables : List Table) (f : Store → Except StoreFault (α × Store)) :
    Drafts st rows (change tables f) fun a rows' => f rows = .ok (a, rows') := by
  refine .read (.require tables) fun s hs => ?_
  rw [← hs.current]
  cases hf : f s.current with
  | ok p => exact ⟨p.2, ⟨hs.outage, hs.durable, rfl⟩, rfl⟩
  | error fault => exact hs.durable

theorem update (tables : List Table) (f : Store → Store) :
    Drafts st rows (update tables f) fun _ rows' => rows' = f rows :=
  (change tables _).imp fun _ _ he => (Prod.ext_iff.mp (Except.ok.inj he)).2.symm

end Drafts

namespace Closes

variable {x : Action α} {Q : α → Store → Prop}

theorem pure {a : α} (h : Q a st) : Closes st (pure a) Q := Ensures.pure fun _ hs => ⟨st, hs, h⟩

theorem record {e : Event} {g : Unit → Action β} {R : β → Store → Prop} (h : Closes st (g ()) R) :
    Closes st (record e >>= g) R :=
  fun s hs => h { s with events := s.events ++ [e] } ⟨hs.outage, hs.durable, hs.current⟩

theorem read {a : α} {g : α → Action β} {R : β → Store → Prop} (hm : st.missing = [])
    (hx : Reads st x (.ok a)) (hg : Closes st (g a) R) : Closes st (x >>= g) R := by
  intro s hs
  rw [bind_ok ((hs.current ▸ hx).calm_ok (hs.calm hm))]
  exact hg s hs

theorem of_finds {a : α} (hm : st.missing = []) (hx : Finds st x (some a)) (h : Q a st) :
    Closes st x Q := by
  obtain ⟨f, hx⟩ := hx
  rw [← bind_pure x]
  exact read hm hx (pure h)

end Closes

namespace Saves

theorem imp {x : Action α} {Q Q' : α → Store → Prop} (hx : Saves st rows x Q)
    (h : ∀ a st', Q a st' → Q' a st') : Saves st rows x Q' :=
  Spares.imp hx fun a _ ⟨st', hs, hq⟩ => ⟨st', hs, h a st' hq⟩

/-- A commit is followed by nothing that fails. -/
theorem commit {g : Unit → Action β} {R : β → Store → Prop} (hg : Closes rows (g ()) R) :
    Saves st rows (commit >>= g) R := by
  intro s hs
  rw [bind_ok (commit_calm hs.outage)]
  have h := hg { s with durable := s.current } ⟨hs.outage, hs.current, hs.current⟩
  revert h
  cases g () { s with durable := s.current } with
  | ok b s' => exact id
  | error f s' => exact False.elim

/-- What is known to succeed saves what it leads to. -/
theorem moves {x : Action α} {g : α → Action β} {R : β → Store → Prop} {a : α} {st' : Store}
    {notes : List Event} (hx : Moves st x a st' notes) (hg : Closes st' (g a) R) :
    Saves st st (x >>= g) R := by
  intro s hs
  rw [hs.eq_on, bind_ok (hx _ _)]
  have h := hg (Session.on st' s.keys (s.events ++ notes)) ⟨rfl, rfl, rfl⟩
  revert h
  cases g a (Session.on st' s.keys (s.events ++ notes)) with
  | ok b s' => exact id
  | error f s' => exact False.elim

end Saves

end Action

end TeamAccess
