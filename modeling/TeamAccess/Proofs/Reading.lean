import TeamAccess.Proofs.Action

/-! # Reading

An action that only reads makes some accesses to the store, each of which may fail, and then answers
what the rows determine. From this one description of an action follow its answer when nothing
fails, the failures that it can meet, and that it leaves the rows alone.
-/

namespace TeamAccess

/-- An access to the store: a call that an outage can hit, or a look at tables that may be missing.
-/
inductive Probe where
  | call (call : StoreCall)
  | read (tables : List Table)
  deriving DecidableEq, Repr

/-- A session that no access to the store fails in. -/
structure Session.Calm (s : Session) : Prop where
  outage : s.outage = none
  complete : s.current.missing = []

namespace Action

variable {α β : Type} {st : Store} {s s' : Session}

/-- Makes an access. -/
def probe : Probe → Action Unit
  | .call c => attempt c
  | .read tables => require tables

/-- Makes some accesses. -/
def probeAll : List Probe → Action Unit
  | [] => pure ()
  | p :: ps => do
    probe p
    probeAll ps

/-- Answers what has been found out. -/
def settle : Except Failure α → Action α
  | .ok a => pure a
  | .error f => throw f

/-- What an access that fails reports: the failure of the outage, or a missing table. -/
def Reported (s : Session) (f : Failure) : Prop :=
  (∃ o ∈ s.outage, f = o.failure) ∨ ∃ t ∈ s.current.missing, f = .store (.noSuchTable t.name)

section Probes

theorem probe_calm (h : s.Calm) (p : Probe) : probe p s = .ok () s := by
  cases p with
  | call c => simp [probe, attempt, h.outage]
  | read tables =>
    have hf : tables.find? (· ∈ s.current.missing) = none := by simp [h.complete]
    simp [probe, require, hf]

theorem probeAll_calm (h : s.Calm) (ps : List Probe) : probeAll ps s = .ok () s := by
  induction ps with
  | nil => rfl
  | cons p ps ih => rw [probeAll, bind_ok (probe_calm h p), ih]

/-- An access only brings the outage closer to its first failure. -/
theorem probe_cases (p : Probe) (s : Session) :
    (∃ f, probe p s = .error f s ∧ Reported s f) ∨
    (∃ o, probe p s = .ok () { s with outage := o } ∧
      ∀ o' ∈ o, ∃ p ∈ s.outage, p.failure = o'.failure) := by
  cases p with
  | call c =>
    rcases attempt_cases c s with ⟨o, ho, hx⟩ | h
    · exact .inl ⟨_, hx, .inl ⟨o, ho, rfl⟩⟩
    · exact .inr h
  | read tables =>
    simp only [probe, require]
    cases hf : tables.find? (· ∈ s.current.missing) with
    | none => exact .inr ⟨s.outage, rfl, fun o ho => ⟨o, ho, rfl⟩⟩
    | some t => exact .inl ⟨_, rfl, .inr ⟨t, by simpa using List.find?_some hf, rfl⟩⟩

theorem probeAll_cases (ps : List Probe) (s : Session) :
    (∃ f o, probeAll ps s = .error f { s with outage := o } ∧ Reported s f ∧
      ∀ o' ∈ o, ∃ p ∈ s.outage, p.failure = o'.failure) ∨
    (∃ o, probeAll ps s = .ok () { s with outage := o } ∧
      ∀ o' ∈ o, ∃ p ∈ s.outage, p.failure = o'.failure) := by
  induction ps generalizing s with
  | nil => exact .inr ⟨s.outage, rfl, fun o ho => ⟨o, ho, rfl⟩⟩
  | cons p ps ih =>
    rcases probe_cases p s with ⟨f, hx, hf⟩ | ⟨o, hx, ho⟩
    · exact .inl ⟨f, s.outage, by rw [probeAll, bind_error hx], hf, fun o ho => ⟨o, ho, rfl⟩⟩
    · have back : ∀ f, Reported { s with outage := o } f → Reported s f := by
        rintro f (⟨o', ho', rfl⟩ | h)
        · obtain ⟨p, hp, he⟩ := ho o' ho'
          exact .inl ⟨p, hp, he.symm⟩
        · exact .inr h
      have far : ∀ q : Option Outage, (∀ o' ∈ q, ∃ p ∈ o, p.failure = o'.failure) →
          ∀ o' ∈ q, ∃ p ∈ s.outage, p.failure = o'.failure := by
        intro q hq o' ho'
        obtain ⟨p, hp, he⟩ := hq o' ho'
        obtain ⟨p', hp', he'⟩ := ho p hp
        exact ⟨p', hp', he'.trans he⟩
      rw [probeAll, bind_ok hx]
      rcases ih { s with outage := o } with ⟨f, q, hy, hf, hq⟩ | ⟨q, hy, hq⟩
      · exact .inl ⟨f, q, hy, back f hf, far q hq⟩
      · exact .inr ⟨q, hy, far q hq⟩

theorem probeAll_append (ps qs : List Probe) :
    probeAll (ps ++ qs) = (do probeAll ps; probeAll qs) := by
  induction ps with
  | nil => rfl
  | cons p ps ih => simp only [List.cons_append, probeAll, ih, bind_assoc]

end Probes

/-- On the rows of a store, an action makes some accesses and then answers or fails as the rows
determine. -/
def Traces (st : Store) (act : Action α) (ps : List Probe) (r : Except Failure α) : Prop :=
  ∀ s, s.current = st → act s = (do probeAll ps; settle r) s

namespace Traces

variable {x : Action α} {ps qs : List Probe} {a : α}

theorem pure (a : α) : Traces st (pure a) [] (.ok a) := fun _ _ => rfl

theorem throw (f : Failure) : Traces st (throw f : Action α) [] (.error f) := fun _ _ => rfl

theorem probe (p : Probe) : Traces st (probe p) [p] (.ok ()) := by
  intro s _
  have h : (do probeAll [p]; settle (.ok ())) = Action.probe p := by
    simp only [probeAll, settle, bind_pure_unit]
  rw [h]

theorem attempt (call : StoreCall) : Traces st (attempt call) [.call call] (.ok ()) :=
  probe (.call call)

theorem require (tables : List Table) : Traces st (require tables) [.read tables] (.ok ()) :=
  probe (.read tables)

theorem ask (f : Store → α) : Traces st (ask f) [] (.ok (f st)) := by
  rintro s rfl
  rfl

theorem bind {g : α → Action β} {r : Except Failure β} (hx : Traces st x ps (.ok a))
    (hg : Traces st (g a) qs r) : Traces st (x >>= g) (ps ++ qs) r := by
  intro s hs
  rw [probeAll_append, bind_apply, hx s hs, bind_assoc, bind_apply, bind_apply]
  rcases probeAll_cases ps s with ⟨f, o, hp, _⟩ | ⟨o, hp, _⟩
  · simp [hp]
  · simpa [hp, settle] using hg { s with outage := o } hs

theorem bind_fails {g : α → Action β} {f : Failure} (hx : Traces st x ps (.error f)) :
    Traces st (x >>= g) ps (.error f) := by
  intro s hs
  rw [bind_apply, hx s hs, bind_apply, bind_apply]
  rcases probeAll_cases ps s with ⟨f, o, hp, _⟩ | ⟨o, hp, _⟩ <;> simp [hp, settle]

theorem query (tables : List Table) (f : Store → α) :
    Traces st (query tables f) [.read tables] (.ok (f st)) :=
  (require tables).bind (ask f)

theorem cast {r r' : Except Failure α} (h : Traces st x ps r) (hp : ps = qs) (hr : r = r') :
    Traces st x qs r' := hp ▸ hr ▸ h

theorem mapM {f : α → Action β} {ps : α → List Probe} {g : α → β} (xs : List α)
    (h : ∀ a ∈ xs, Traces st (f a) (ps a) (.ok (g a))) :
    Traces st (xs.mapM f) (xs.flatMap ps) (.ok (xs.map g)) := by
  induction xs with
  | nil => exact .pure []
  | cons a xs ih =>
    rw [List.mapM_cons]
    exact cast ((h a (by simp)).bind ((ih fun b hb => h b (by simp [hb])).bind (.pure _)))
      (by simp) rfl

theorem calm {r : Except Failure α} (h : Traces st x ps r) (hs : s.Calm) (hst : s.current = st) :
    x s = settle r s := by
  rw [h s hst, bind_ok (probeAll_calm hs ps)]

end Traces

/-- On the rows of a store, an action only reads, and answers or fails as the rows determine unless
an access fails. -/
def Reads (st : Store) (act : Action α) (r : Except Failure α) : Prop :=
  ∃ ps, Traces st act ps r

namespace Reads

variable {x : Action α} {a : α}

theorem pure (a : α) : Reads st (pure a) (.ok a) := ⟨_, .pure a⟩

theorem throw (f : Failure) : Reads st (throw f : Action α) (.error f) := ⟨_, .throw f⟩

theorem attempt (call : StoreCall) : Reads st (attempt call) (.ok ()) := ⟨_, .attempt call⟩

theorem require (tables : List Table) : Reads st (require tables) (.ok ()) := ⟨_, .require tables⟩

theorem ask (f : Store → α) : Reads st (ask f) (.ok (f st)) := ⟨_, .ask f⟩

theorem query (tables : List Table) (f : Store → α) : Reads st (query tables f) (.ok (f st)) :=
  ⟨_, .query tables f⟩

theorem bind {g : α → Action β} {r : Except Failure β} (hx : Reads st x (.ok a))
    (hg : Reads st (g a) r) : Reads st (x >>= g) r := by
  obtain ⟨ps, hx⟩ := hx
  obtain ⟨qs, hg⟩ := hg
  exact ⟨_, hx.bind hg⟩

theorem bind_fails {g : α → Action β} {f : Failure} (hx : Reads st x (.error f)) :
    Reads st (x >>= g) (.error f) := by
  obtain ⟨ps, hx⟩ := hx
  exact ⟨_, hx.bind_fails⟩

theorem mapM {f : α → Action β} {g : α → β} {xs : List α}
    (h : ∀ a ∈ xs, Reads st (f a) (.ok (g a))) : Reads st (xs.mapM f) (.ok (xs.map g)) := by
  induction xs with
  | nil => exact .pure []
  | cons a xs ih =>
    rw [List.mapM_cons]
    exact (h a (by simp)).bind ((ih fun b hb => h b (by simp [hb])).bind (.pure _))

theorem cast {r r' : Except Failure α} (h : Reads st x r) (hr : r = r') : Reads st x r' := hr ▸ h

theorem calm {r : Except Failure α} (h : Reads st x r) (hs : s.Calm) (hst : s.current = st) :
    x s = settle r s := by
  obtain ⟨ps, h⟩ := h
  exact h.calm hs hst

theorem calm_ok (h : Reads s.current x (.ok a)) (hs : s.Calm) : x s = .ok a s := h.calm hs rfl

/-- Reading answers what the rows determine or fails, and changes the outage only. -/
theorem cases {r : Except Failure α} (h : Reads s.current x r) :
    (∃ f o, x s = .error f { s with outage := o }) ∨
    ∃ a o, r = .ok a ∧ (s.outage = none → o = none) ∧ x s = .ok a { s with outage := o } := by
  obtain ⟨ps, ht⟩ := h
  rw [ht s rfl]
  rcases probeAll_cases ps s with ⟨f, o, hp, -⟩ | ⟨o, hp, ho⟩
  · exact .inl ⟨f, o, bind_error hp⟩
  · rw [bind_ok hp]
    cases r with
    | error f => exact .inl ⟨f, o, rfl⟩
    | ok a =>
      refine .inr ⟨a, o, rfl, fun hn => ?_, rfl⟩
      refine Option.eq_none_iff_forall_not_mem.mpr fun o' ho' => ?_
      obtain ⟨q, hq, -⟩ := ho o' ho'
      simp [hn] at hq

/-- Reading keeps every invariant of the rows. -/
theorem yields {I : Store → Prop} {E : Failure → Prop} {Q : α → Prop}
    (hE : ∀ t, E (.store (.noSuchTable t)))
    (h : ∀ st, ∃ r, Reads st x r ∧ (∀ a, r = .ok a → Q a) ∧ ∀ f, r = .error f → E f) :
    Yields I E Q x := by
  intro s hs
  obtain ⟨r, ⟨ps, ht⟩, hQ, hF⟩ := h s.current
  rw [ht s rfl, bind_apply]
  have within : ∀ o : Option Outage, (∀ o' ∈ o, ∃ p ∈ s.outage, p.failure = o'.failure) →
      Within I E { s with outage := o } := by
    intro o ho
    refine ⟨hs.durable, hs.current, fun o' ho' => ?_⟩
    obtain ⟨p, hp, he⟩ := ho o' ho'
    exact he ▸ hs.outage p hp
  rcases probeAll_cases ps s with ⟨f, o, hp, hf, ho⟩ | ⟨o, hp, ho⟩
  · rw [hp]
    refine ⟨within o ho, ?_⟩
    rcases hf with ⟨p, hmem, rfl⟩ | ⟨t, _, rfl⟩
    · exact hs.outage p hmem
    · exact hE _
  · rw [hp]
    cases r with
    | ok a => exact ⟨within o ho, hQ a rfl⟩
    | error f => exact ⟨within o ho, hF f rfl⟩

theorem keeps {I : Store → Prop} {E : Failure → Prop} (hE : ∀ t, E (.store (.noSuchTable t)))
    (h : ∀ st, ∃ a, Reads st x (.ok a)) : Keeps I E x :=
  yields hE fun st => by
    obtain ⟨a, ha⟩ := h st
    exact ⟨_, ha, fun _ _ => trivial, by simp⟩

end Reads

/-- On the rows of a store, a lookup only reads, and answers what is there or fails. -/
def Finds (st : Store) (act : Action α) (o : Option α) : Prop :=
  ∃ f, Reads st act (o.elim (.error f) .ok)

namespace Finds

variable {x : Action α} {o : Option α}

theorem pure (a : α) : Finds st (pure a) (some a) := ⟨.interrupted "", .pure a⟩

theorem reads {a : α} (h : Reads st x (.ok a)) : Finds st x (some a) := ⟨.interrupted "", h⟩

theorem bind {g : α → Action β} {q : α → Option β} (hx : Finds st x o)
    (hg : ∀ a ∈ o, Finds st (g a) (q a)) : Finds st (x >>= g) (o.bind q) := by
  obtain ⟨f, hx⟩ := hx
  cases o with
  | none => exact ⟨f, hx.bind_fails⟩
  | some a =>
    obtain ⟨f, hg⟩ := hg a rfl
    exact ⟨f, Reads.bind hx hg⟩

theorem map (hx : Finds st x o) (g : α → β) :
    Finds st (do return g (← x)) (o.map g) := by
  obtain ⟨f, hx⟩ := hx
  cases o with
  | none => exact ⟨f, hx.bind_fails⟩
  | some a => exact ⟨f, hx.bind (.pure (g a))⟩

/-- What may be missing is looked up and has to be there. -/
theorem demand {x : Action (Option α)} {g : Option α → Action α} (hx : Reads st x (.ok o))
    (found : ∀ a, g (some a) = Pure.pure a) (missing : ∃ f, g none = throw f) :
    Finds st (x >>= g) o := by
  refine (Finds.reads hx).bind (q := id) fun o' _ => ?_
  cases o' with
  | none =>
    obtain ⟨f, hf⟩ := missing
    exact ⟨f, hf ▸ .throw f⟩
  | some a => exact found a ▸ .pure a

theorem cast {o' : Option α} (h : Finds st x o) (ho : o = o') : Finds st x o' := ho ▸ h

/-- What a lookup without an outage finds is there, and the session stays as it is. -/
theorem quiet (h : Finds s.current x o) (hs : s.outage = none) :
    (∃ f s', x s = .error f s') ∨ ∃ a ∈ o, x s = .ok a s := by
  obtain ⟨f, h⟩ := h
  rcases h.cases with ⟨f, outage, hx⟩ | ⟨a, outage, ha, hn, hx⟩
  · exact .inl ⟨f, _, hx⟩
  · refine .inr ⟨a, ?_, by rw [hx, hn hs, ← hs]⟩
    cases o with
    | none => cases ha
    | some b =>
      cases ha
      rfl

/-- Before an answer without an outage, something has been looked up and found. -/
theorem of_bind_ok {g : α → Action β} {b : β} (h : Finds s.current x o) (hs : s.outage = none)
    (hx : (x >>= g) s = .ok b s') : ∃ a ∈ o, g a s = .ok b s' := by
  obtain ⟨a, t, hx, hg⟩ := Action.of_bind_ok hx
  rcases h.quiet hs with ⟨f, t', he⟩ | ⟨a', ha, he⟩
  · cases he.symm.trans hx
  · cases he.symm.trans hx
    exact ⟨a, ha, hg⟩

end Finds

/-- What has been read stays true until the rows change. -/
theorem Carries.reads {I P : Store → Prop} {E : Failure → Prop} {x : Action α}
    {r : Store → Except Failure α} (hk : Keeps I E x) (hr : ∀ st, Reads st x (r st)) :
    Carries I E P x fun a st => P st ∧ r st = .ok a := by
  rintro s ⟨hs, hp⟩
  have hw := hk s hs
  rcases (hr s.current).cases with ⟨f, o, hx⟩ | ⟨a, o, ha, -, hx⟩
  · rw [hx] at hw ⊢
    exact hw
  · rw [hx] at hw ⊢
    exact ⟨hw.1, hp, ha⟩

/-- What has been found stays there until the rows change. -/
theorem Carries.finds {I P : Store → Prop} {E : Failure → Prop} {x : Action α}
    {o : Store → Option α} (hk : Keeps I E x) (hf : ∀ st, Finds st x (o st)) :
    Carries I E P x fun a st => P st ∧ a ∈ o st := by
  have hr := fun st => (hf st).choose_spec
  refine (Carries.reads hk hr).imp fun a st ha => ⟨ha.1, ?_⟩
  cases ho : o st with
  | none => simp [ho] at ha
  | some b =>
    obtain rfl : b = a := by simpa [ho] using ha.2
    rfl

/-- On the rows of a store, an action fails where no access does, and leaves the session as it is.
-/
def Rejects (st : Store) (act : Action α) (f : Failure) : Prop :=
  ∀ s, s.current = st → s.outage = none → act s = .error f s

namespace Rejects

variable {x : Action α} {g : α → Action β} {f : Failure}

theorem reads (hm : st.missing = []) (h : Reads st x (.error f)) : Rejects st x f := by
  rintro s rfl ho
  exact h.calm ⟨ho, hm⟩ rfl

theorem change {tables : List Table} {c : Store → Except StoreFault (α × Store)}
    {fault : StoreFault} (hm : st.missing = []) (hc : c st = .error fault) :
    Rejects st (Action.change tables c) (.store fault) := by
  rintro s rfl ho
  have hr : Action.require tables s = .ok () s := probe_calm ⟨ho, hm⟩ (.read tables)
  refine (bind_ok hr).trans ?_
  simp only [hc]

theorem bind (h : Rejects st x f) : Rejects st (x >>= g) f :=
  fun s hs ho => bind_error (h s hs ho)

theorem after {a : α} (hm : st.missing = []) (hx : Reads st x (.ok a)) (hg : Rejects st (g a) f) :
    Rejects st (x >>= g) f := by
  rintro s rfl ho
  rw [bind_ok (hx.calm_ok ⟨ho, hm⟩)]
  exact hg s rfl ho

theorem unique {f' : Failure} (h : Rejects st x f) (h' : Rejects st x f') : f = f' := by
  have he := (h { durable := st, current := st } rfl rfl).symm.trans (h' _ rfl rfl)
  cases he
  rfl

/-- A failure that is not one of the store passes unchanged. -/
theorem guarded (h : Rejects st x f) (hf : ∀ fault, f ≠ .store fault) :
    Rejects st (guarded x) f := by
  intro s hs ho
  rw [Action.guarded, tryCatch_apply, h s hs ho]
  cases f with
  | store fault => exact absurd rfl (hf fault)
  | _ => rfl

end Rejects

section Leads

variable {P : Store → Prop} {x : Action α} {g : α → Action β} {Q : β → Store → Prop}

/-- Before an action that starts from given rows, something is looked up in them. -/
theorem Leads.find {o : Store → Option α} (hf : ∀ st, Finds st x (o st))
    (hg : ∀ a ∈ o st, Leads (· = st) (g a) Q) : Leads (· = st) (x >>= g) Q := by
  refine (Carries.finds (keeps_true x) hf).bind fun a s hs => ?_
  obtain ⟨hw, rfl, ha⟩ := hs
  exact hg a ha s ⟨hw, rfl⟩

theorem Leads.read {a : Store → α} (hr : ∀ st, Reads st x (.ok (a st))) :
    Leads P x fun _ => P :=
  (Carries.reads (keeps_true x) hr).imp fun _ _ => And.left

end Leads

end Action

end TeamAccess
