import TeamAccess.Session

/-! # Contracts of actions

An action is described by what holds after it, whether it answers or fails. The contract that is
carried through all operations is `Keeps`: the committed and the current rows stay within an
invariant, and only failures of a given class come out.
-/

namespace TeamAccess.Action

variable {α β : Type} {s s' : Session}

section Run

/-- The session that an action leaves, whether it answers or fails. -/
def left (act : Action α) (s : Session) : Session :=
  match act s with
  | .ok _ s' => s'
  | .error _ s' => s'

@[simp] theorem pure_apply (a : α) (s : Session) : (pure a : Action α) s = .ok a s := rfl

@[simp] theorem throw_apply (f : Failure) (s : Session) :
    (throw f : Action α) s = .error f s := rfl

theorem bind_apply (x : Action α) (g : α → Action β) (s : Session) :
    (x >>= g) s = match x s with
      | .ok a s' => g a s'
      | .error f s' => .error f s' := by
  change EStateM.bind x g s = _
  unfold EStateM.bind
  cases x s <;> rfl

theorem map_apply (g : α → β) (x : Action α) (s : Session) :
    (g <$> x) s = match x s with
      | .ok a s' => .ok (g a) s'
      | .error f s' => .error f s' := by
  change EStateM.map g x s = _
  unfold EStateM.map
  cases x s <;> rfl

theorem tryCatch_apply (x : Action α) (g : Failure → Action α) (s : Session) :
    (tryCatch x g) s = match x s with
      | .ok a s' => .ok a s'
      | .error f s' => g f s' := by
  change EStateM.tryCatch x g s = _
  unfold EStateM.tryCatch
  cases x s <;> rfl

@[simp] theorem ask_apply (f : Store → α) (s : Session) : ask f s = .ok (f s.current) s := rfl

@[simp] theorem record_apply (e : Event) (s : Session) :
    record e s = .ok () { s with events := s.events ++ [e] } := rfl

@[simp] theorem rollback_apply (s : Session) :
    rollback s = .ok () { s with current := s.durable } := rfl

/-- A call is hit by the outage, or it passes and the outage is closer to its first failure. -/
theorem attempt_cases (call : StoreCall) (s : Session) :
    (∃ o ∈ s.outage, attempt call s = .error o.failure s) ∨
    (∃ o, attempt call s = .ok () { s with outage := o } ∧
      ∀ o' ∈ o, ∃ p ∈ s.outage, p.failure = o'.failure) := by
  obtain ⟨durable, current, outage, keys, events⟩ := s
  cases outage with
  | none => exact .inr ⟨none, rfl, by simp⟩
  | some o =>
    by_cases hc : o.call = call
    · by_cases h0 : o.after = 0
      · exact .inl ⟨o, rfl, by simp [attempt, hc, h0]⟩
      · exact .inr ⟨some { o with after := o.after - 1 }, by simp [attempt, hc, h0], by simp⟩
    · exact .inr ⟨some o, by simp [attempt, hc], by simp⟩

theorem bind_ok {x : Action α} {g : α → Action β} {a : α} (h : x s = .ok a s') :
    (x >>= g) s = g a s' := by rw [bind_apply, h]

theorem bind_error {x : Action α} {g : α → Action β} {f : Failure} (h : x s = .error f s') :
    (x >>= g) s = .error f s' := by rw [bind_apply, h]

/-- An action that answers has gone through its first part. -/
theorem of_bind_ok {x : Action α} {g : α → Action β} {b : β} (h : (x >>= g) s = .ok b s') :
    ∃ a t, x s = .ok a t ∧ g a t = .ok b s' := by
  rw [bind_apply] at h
  cases hx : x s with
  | ok a t =>
    rw [hx] at h
    exact ⟨a, t, rfl, h⟩
  | error f t =>
    rw [hx] at h
    cases h

/-- An action that fails does so in its first part or in what follows. -/
theorem of_bind_error {x : Action α} {g : α → Action β} {f : Failure}
    (h : (x >>= g) s = .error f s') :
    x s = .error f s' ∨ ∃ a t, x s = .ok a t ∧ g a t = .error f s' := by
  rw [bind_apply] at h
  cases hx : x s with
  | ok a t =>
    rw [hx] at h
    exact .inr ⟨a, t, rfl, h⟩
  | error f' t =>
    rw [hx] at h
    cases h
    exact .inl rfl

theorem map_ok {x : Action α} {g : α → β} {a : α} (h : x s = .ok a s') :
    (g <$> x) s = .ok (g a) s' := by rw [map_apply, h]

theorem discard_eq_bind (x : Action α) : discard x = (x >>= fun _ => pure ()) :=
  (bind_pure_comp _ x).symm

theorem discard_error {x : Action α} {f : Failure} :
    discard x s = .error f s' ↔ x s = .error f s' := by
  rw [discard_eq_bind, bind_apply]
  cases x s <;> simp

end Run

/-- From every session with `P`, an answer and the session after it satisfy `Q`, and a failure and
the session after it satisfy `E`. -/
def Ensures (P : Session → Prop) (act : Action α) (Q : α → Session → Prop)
    (E : Failure → Session → Prop) : Prop :=
  ∀ s, P s → match act s with
    | .ok a s' => Q a s'
    | .error f s' => E f s'

namespace Ensures

variable {P : Session → Prop} {Q : α → Session → Prop} {R : β → Session → Prop}
  {E : Failure → Session → Prop} {x : Action α}

theorem pure {a : α} (h : ∀ s, P s → Q a s) : Ensures P (pure a) Q E := h

theorem throw {f : Failure} (h : ∀ s, P s → E f s) : Ensures P (throw f) Q E := h

theorem bind {g : α → Action β} (hx : Ensures P x Q E) (hg : ∀ a, Ensures (Q a) (g a) R E) :
    Ensures P (x >>= g) R E := by
  intro s hs
  rw [bind_apply]
  have h := hx s hs
  revert h
  cases x s with
  | ok a s' => exact hg a s'
  | error f s' => exact id

theorem tryCatch {g : Failure → Action α} {E' : Failure → Session → Prop}
    (hx : Ensures P x Q E') (hg : ∀ f, Ensures (E' f) (g f) Q E) :
    Ensures P (tryCatch x g) Q E := by
  intro s hs
  rw [tryCatch_apply]
  have h := hx s hs
  revert h
  cases x s with
  | ok a s' => exact id
  | error f s' => exact hg f s'

theorem consequence {P' : Session → Prop} {Q' : α → Session → Prop}
    {E' : Failure → Session → Prop} (h : Ensures P x Q E) (hP : ∀ s, P' s → P s)
    (hQ : ∀ a s, Q a s → Q' a s) (hE : ∀ f s, E f s → E' f s) : Ensures P' x Q' E' := by
  intro s hs
  have h := h s (hP s hs)
  revert h
  cases x s with
  | ok a s' => exact hQ a s'
  | error f s' => exact hE f s'

end Ensures

/-- A session whose committed and current rows are within an invariant, with an outage, if there is
one, of a class of failures. -/
structure Within (I : Store → Prop) (E : Failure → Prop) (s : Session) : Prop where
  durable : I s.durable
  current : I s.current
  outage : ∀ o ∈ s.outage, E o.failure

/-- The rows stay within an invariant, every answer satisfies `Q` and every failure is of a class.
-/
def Yields (I : Store → Prop) (E : Failure → Prop) (Q : α → Prop) (act : Action α) : Prop :=
  Ensures (Within I E) act (fun a s => Within I E s ∧ Q a) (fun f s => Within I E s ∧ E f)

/-- The rows stay within an invariant and every failure is of a class. -/
abbrev Keeps (I : Store → Prop) (E : Failure → Prop) (act : Action α) : Prop :=
  Yields I E (fun _ => True) act

namespace Yields

variable {I : Store → Prop} {E : Failure → Prop} {Q : α → Prop} {R : β → Prop} {x : Action α}

theorem pure {a : α} (h : Q a) : Yields I E Q (pure a) := Ensures.pure fun _ hs => ⟨hs, h⟩

theorem throw_bind {f : Failure} {g : α → Action β} (h : E f) : Yields I E R (throw f >>= g) :=
  fun _ hs => ⟨hs, h⟩

theorem throw {f : Failure} (h : E f) : Yields I E Q (throw f) :=
  Ensures.throw fun _ hs => ⟨hs, h⟩

theorem bind {g : α → Action β} (hx : Yields I E Q x) (hg : ∀ a, Q a → Yields I E R (g a)) :
    Yields I E R (x >>= g) :=
  Ensures.bind hx fun a s hs => hg a hs.2 s hs.1

theorem keeps (h : Yields I E Q x) : Keeps I E x :=
  Ensures.consequence h (fun _ => id) (fun _ _ hs => ⟨hs.1, trivial⟩) fun _ _ => id

theorem tryCatch {g : Failure → Action α} (hx : Yields I E Q x)
    (hg : ∀ f, E f → Yields I E Q (g f)) : Yields I E Q (tryCatch x g) :=
  Ensures.tryCatch hx fun f s hs => hg f hs.2 s hs.1

end Yields

namespace Keeps

variable {I : Store → Prop} {E : Failure → Prop} {R : β → Prop} {x : Action α}

theorem pure (a : α) : Keeps I E (pure a) := Yields.pure trivial

theorem throw {f : Failure} (h : E f) : Keeps I E (throw f : Action α) := Yields.throw h

theorem bind {g : α → Action β} (hx : Keeps I E x) (hg : ∀ a, Yields I E R (g a)) :
    Yields I E R (x >>= g) :=
  Yields.bind hx fun a _ => hg a

theorem lookup {x : Action (Option α)} {g : Option α → Action β} (hx : Keeps I E x)
    (absent : Yields I E R (g none)) (found : ∀ a, Yields I E R (g (some a))) :
    Yields I E R (x >>= g) := by
  refine hx.bind fun o => ?_
  cases o with
  | none => exact absent
  | some a => exact found a

theorem map {g : α → β} (hx : Keeps I E x) : Keeps I E (g <$> x) := by
  rw [← bind_pure_comp]
  exact hx.bind fun a => pure (g a)

theorem ask (f : Store → α) : Keeps I E (ask f) := fun _ hs => ⟨hs, trivial⟩

theorem modify {f : Session → Session} (h : ∀ s, Within I E s → Within I E (f s)) :
    Keeps I E (modify f) := fun s hs => ⟨h s hs, trivial⟩

theorem record (e : Event) : Keeps I E (record e) :=
  modify fun _ hs => ⟨hs.durable, hs.current, hs.outage⟩

theorem rollback : Keeps I E rollback :=
  modify fun _ hs => ⟨hs.durable, hs.durable, hs.outage⟩

theorem newKey : Keeps I E newKey :=
  fun _ hs => ⟨⟨hs.durable, hs.current, hs.outage⟩, trivial⟩

theorem attempt (call : StoreCall) : Keeps I E (attempt call) := by
  intro s hs
  rcases attempt_cases call s with ⟨o, ho, hx⟩ | ⟨o, hx, ho⟩
  · rw [hx]
    exact ⟨hs, hs.outage o ho⟩
  · rw [hx]
    refine ⟨⟨hs.durable, hs.current, fun o' h => ?_⟩, trivial⟩
    obtain ⟨p, hp, he⟩ := ho o' h
    exact he ▸ hs.outage p hp

theorem commit : Keeps I E commit :=
  (attempt .commit).bind fun _ => modify fun _ hs => ⟨hs.current, hs.current, hs.outage⟩

theorem require {tables : List Table} (hE : ∀ t, E (.store (.noSuchTable t))) :
    Keeps I E (require tables) := by
  intro s hs
  unfold Action.require
  cases tables.find? (· ∈ s.current.missing) with
  | none => exact ⟨hs, trivial⟩
  | some t => exact ⟨hs, hE _⟩

theorem change {tables : List Table} {f : Store → Except StoreFault (α × Store)}
    (hE : ∀ fault, E (.store fault)) (hf : ∀ s a s', I s → f s = .ok (a, s') → I s') :
    Keeps I E (change tables f) := by
  refine (require fun _ => hE _).bind fun _ s hs => ?_
  cases hx : f s.current with
  | ok p => exact ⟨⟨hs.durable, hf _ p.1 p.2 hs.current hx, hs.outage⟩, trivial⟩
  | error fault => exact ⟨hs, hE fault⟩

theorem update {tables : List Table} {f : Store → Store} (hE : ∀ fault, E (.store fault))
    (hf : ∀ s, I s → I (f s)) : Keeps I E (update tables f) := by
  refine change hE fun s a s' hs he => ?_
  obtain rfl : f s = s' := by simpa using he
  exact hf s hs

theorem guarded (hE : ∀ reason, E (.unavailable reason)) (hx : Keeps I E x) :
    Keeps I E (guarded x) := by
  refine hx.tryCatch fun f hf => ?_
  cases f with
  | store fault => exact rollback.bind fun _ => throw (hE _)
  | _ => exact throw hf

section Loops

variable {xs : List α}

theorem forM {f : α → Action Unit} (h : ∀ a ∈ xs, Keeps I E (f a)) :
    Keeps I E (xs.forM f) := by
  induction xs with
  | nil => exact pure ()
  | cons a xs ih =>
    exact (h a (by simp)).bind fun _ => ih fun b hb => h b (by simp [hb])

theorem mapM {f : α → Action β} (h : ∀ a ∈ xs, Keeps I E (f a)) :
    Keeps I E (xs.mapM f) := by
  induction xs with
  | nil => exact pure []
  | cons a xs ih =>
    rw [List.mapM_cons]
    exact (h a (by simp)).bind fun _ =>
      (ih fun b hb => h b (by simp [hb])).bind fun _ => pure _

theorem foldlM {f : β → α → Action β} {b : β} (h : ∀ b, ∀ a ∈ xs, Keeps I E (f b a)) :
    Keeps I E (xs.foldlM f b) := by
  induction xs generalizing b with
  | nil => exact pure b
  | cons a xs ih =>
    rw [List.foldlM_cons]
    exact (h b a (by simp)).bind fun _ => ih fun b c hc => h b c (by simp [hc])

theorem filterM {f : α → Action Bool} (h : ∀ a ∈ xs, Keeps I E (f a)) :
    Keeps I E (xs.filterM f) := by
  have collected : ∀ acc, Keeps I E (xs.filterAuxM f acc) := by
    induction xs with
    | nil => exact fun acc => pure acc
    | cons a xs ih =>
      exact fun acc => (h a (by simp)).bind fun b => ih (fun c hc => h c (by simp [hc])) _
  exact (collected []).bind fun _ => pure _

end Loops

end Keeps

/-- Where the current rows satisfy `P`: the rows stay within an invariant, an answer and the current
rows then satisfy `Q`, and every failure is of a class. -/
def Carries (I : Store → Prop) (E : Failure → Prop) (P : Store → Prop) (act : Action α)
    (Q : α → Store → Prop) : Prop :=
  Ensures (fun s => Within I E s ∧ P s.current) act (fun a s => Within I E s ∧ Q a s.current)
    fun f s => Within I E s ∧ E f

namespace Carries

variable {I : Store → Prop} {E : Failure → Prop} {P : Store → Prop} {Q Q' : α → Store → Prop}
  {R : β → Store → Prop} {x : Action α}

theorem pure {a : α} (h : ∀ st, P st → Q a st) : Carries I E P (pure a) Q :=
  Ensures.pure fun _ hs => ⟨hs.1, h _ hs.2⟩

theorem throw {f : Failure} (h : E f) : Carries I E P (throw f) Q :=
  Ensures.throw fun _ hs => ⟨hs.1, h⟩

theorem bind {g : α → Action β} (hx : Carries I E P x Q) (hg : ∀ a, Carries I E (Q a) (g a) R) :
    Carries I E P (x >>= g) R :=
  Ensures.bind hx hg

theorem imp (hx : Carries I E P x Q) (h : ∀ a st, Q a st → Q' a st) : Carries I E P x Q' :=
  Ensures.consequence hx (fun _ => id) (fun a _ hs => ⟨hs.1, h a _ hs.2⟩) fun _ _ => id

theorem weaken {P' : Store → Prop} (hx : Carries I E P x Q) (h : ∀ st, P' st → P st) :
    Carries I E P' x Q :=
  Ensures.consequence hx (fun _ hs => ⟨hs.1, h _ hs.2⟩) (fun _ _ => id) fun _ _ => id

theorem yields {S : α → Prop} (hx : Carries I E P x Q) (hP : ∀ st, P st)
    (hQ : ∀ a st, Q a st → S a) : Yields I E S x :=
  Ensures.consequence hx (fun _ hs => ⟨hs, hP _⟩) (fun a _ hs => ⟨hs.1, hQ a _ hs.2⟩)
    fun _ _ => id

theorem keeps (hx : Carries I E (fun _ => True) x Q) : Keeps I E x :=
  hx.yields (fun _ => trivial) fun _ _ _ => trivial

theorem of_yields {S : α → Prop} (hx : Yields I E S x) : Carries I E P x fun a _ => S a :=
  Ensures.consequence hx (fun _ => And.left) (fun _ _ => id) fun _ _ => id

theorem attempt (call : StoreCall) : Carries I E P (attempt call) fun _ => P := by
  intro s hs
  rcases attempt_cases call s with ⟨o, ho, hx⟩ | ⟨o, hx, ho⟩
  · have hk := Keeps.attempt (E := E) call s hs.1
    rw [hx] at hk ⊢
    exact hk
  · have hk := Keeps.attempt (E := E) call s hs.1
    rw [hx] at hk ⊢
    exact ⟨hk.1, hs.2⟩

theorem require {tables : List Table} (hE : ∀ t, E (.store (.noSuchTable t))) :
    Carries I E P (require tables) fun _ => P := by
  intro s hs
  unfold Action.require
  cases tables.find? (· ∈ s.current.missing) with
  | none => exact hs
  | some t => exact ⟨hs.1, hE _⟩

theorem ask (f : Store → α) : Carries I E P (ask f) fun _ => P := fun _ hs => hs

theorem newKey : Carries I E P newKey fun _ => P :=
  fun _ hs => ⟨⟨hs.1.durable, hs.1.current, hs.1.outage⟩, hs.2⟩

theorem change {tables : List Table} {f : Store → Except StoreFault (α × Store)}
    (hE : ∀ fault, E (.store fault))
    (hf : ∀ s a s', I s → P s → f s = .ok (a, s') → I s' ∧ Q a s') :
    Carries I E P (change tables f) Q := by
  refine (require fun _ => hE _).bind fun _ s hs => ?_
  cases hx : f s.current with
  | ok p =>
    obtain ⟨hi, hq⟩ := hf _ p.1 p.2 hs.1.current hs.2 hx
    exact ⟨⟨hs.1.durable, hi, hs.1.outage⟩, hq⟩
  | error fault => exact ⟨hs.1, hE fault⟩

theorem update {tables : List Table} {f : Store → Store} (hE : ∀ fault, E (.store fault))
    (hf : ∀ s, I s → P s → I (f s)) : Carries I E P (update tables f) fun _ _ => True := by
  refine change hE fun s a s' hs hp he => ?_
  obtain rfl : f s = s' := by simpa using he
  exact ⟨hf s hs hp, trivial⟩

theorem modify {f : Session → Session} (h : ∀ s, Within I E s → Within I E (f s))
    (hc : ∀ s, (f s).current = s.current) : Carries I E P (modify f) fun _ => P := by
  rintro s ⟨hs, hp⟩
  exact ⟨h s hs, (congrArg P (hc s)).mpr hp⟩

theorem record (e : Event) : Carries I E P (record e) fun _ => P :=
  modify (fun _ hs => ⟨hs.durable, hs.current, hs.outage⟩) fun _ => rfl

theorem commit : Carries I E P commit fun _ => P :=
  (attempt .commit).bind fun _ =>
    modify (fun _ hs => ⟨hs.current, hs.current, hs.outage⟩) fun _ => rfl

theorem guarded (hE : ∀ reason, E (.unavailable reason)) (hx : Carries I E P x Q) :
    Carries I E P (guarded x) Q := by
  refine Ensures.tryCatch hx fun f => ?_
  cases f with
  | store fault => exact fun s hs => ⟨⟨hs.1.durable, hs.1.durable, hs.1.outage⟩, hE _⟩
  | _ => exact fun s hs => hs

theorem discard {S : Store → Prop} (hx : Carries I E P x fun _ => S) :
    Carries I E P (discard x) fun _ => S := by
  intro s hs
  have he : (Functor.discard x : Action Unit) s = (Function.const α () <$> x) s := rfl
  rw [he, map_apply]
  have h := hx s hs
  revert h
  cases x s with
  | ok a s' => exact id
  | error f s' => exact id

theorem foldlM {f : β → α → Action β} {xs : List α} {b : β}
    (h : ∀ b a, Carries I E P (f b a) fun _ => P) :
    Carries I E P (xs.foldlM f b) fun _ => P := by
  induction xs generalizing b with
  | nil => exact pure fun _ => id
  | cons a xs ih =>
    rw [List.foldlM_cons]
    exact (h b a).bind fun _ => ih

/-- What is known of each answer stays known while the next ones are found. -/
theorem mapM {K : β → Store → Prop} {f : α → Action β} {xs : List α}
    (h : ∀ a ∈ xs, ∀ known : List β, Carries I E (fun st => P st ∧ ∀ b ∈ known, K b st) (f a)
      fun b st => P st ∧ ∀ b' ∈ b :: known, K b' st) :
    Carries I E P (xs.mapM f) fun bs st => P st ∧ ∀ b ∈ bs, K b st := by
  -- the answers found before are known as well
  have grown : ∀ known : List β, Carries I E (fun st => P st ∧ ∀ b ∈ known, K b st) (xs.mapM f)
      fun bs st => P st ∧ (∀ b ∈ bs, K b st) ∧ ∀ b ∈ known, K b st := by
    induction xs with
    | nil => exact fun known => pure fun st hs => ⟨hs.1, by simp, hs.2⟩
    | cons a xs ih =>
      intro known
      rw [List.mapM_cons]
      refine (h a (by simp) known).bind fun b => ?_
      refine (ih (fun a ha => h a (by simp [ha])) (b :: known)).bind fun bs => pure ?_
      rintro st ⟨hp, hbs, hb⟩
      refine ⟨hp, fun b' hb' => ?_, fun b' hb' => hb b' (by simp [hb'])⟩
      rcases List.mem_cons.mp hb' with rfl | hb'
      · exact hb b' (by simp)
      · exact hbs b' hb'
  refine Ensures.consequence (grown []) ?_ ?_ fun _ _ => id
  · exact fun _ hs => ⟨hs.1, hs.2, by simp⟩
  · exact fun _ _ hs => ⟨hs.1, hs.2.1, hs.2.2.1⟩

theorem mapM_same {f : α → Action β} {xs : List α}
    (h : ∀ a ∈ xs, Carries I E P (f a) fun _ => P) : Carries I E P (xs.mapM f) fun _ => P := by
  induction xs with
  | nil => exact pure fun _ => id
  | cons a xs ih =>
    rw [List.mapM_cons]
    exact (h a (by simp)).bind fun _ => (ih fun b hb => h b (by simp [hb])).bind fun _ =>
      pure fun _ => id

end Carries

section Leads

variable {P : Store → Prop} {Q : α → Store → Prop} {x : Action α}

/-- An action that answers leads from rows with `P` to rows with `Q`. -/
abbrev Leads (P : Store → Prop) (act : Action α) (Q : α → Store → Prop) : Prop :=
  Carries (fun _ => True) (fun _ => True) P act Q

theorem within_true (s : Session) : Within (fun _ => True) (fun _ => True) s :=
  ⟨trivial, trivial, fun _ _ => trivial⟩

theorem keeps_true (act : Action α) : Keeps (fun _ => True) (fun _ => True) act := by
  intro s _
  cases act s with
  | ok a s' => exact ⟨within_true s', trivial⟩
  | error f s' => exact ⟨within_true s', trivial⟩

theorem Leads.of_ok (h : Leads P x Q) {a : α} (hP : P s.current) (hx : x s = .ok a s') :
    Q a s'.current := by
  have hq := h s ⟨within_true s, hP⟩
  rw [hx] at hq
  exact hq.2

/-- It is enough to start from each of the rows with `P`. -/
theorem Leads.of_eq (h : ∀ st, P st → Leads (· = st) x Q) : Leads P x Q :=
  fun s hs => h s.current hs.2 s ⟨hs.1, rfl⟩

theorem Leads.change {tables : List Table} {f : Store → Except StoreFault (α × Store)}
    (hf : ∀ st a st', P st → f st = .ok (a, st') → Q a st') : Leads P (change tables f) Q :=
  Carries.change (fun _ => trivial) fun st a st' _ hp he => ⟨trivial, hf st a st' hp he⟩

theorem Leads.update {tables : List Table} {f : Store → Store} {R : Store → Prop}
    (hf : ∀ st, P st → R (f st)) : Leads P (update tables f) fun _ => R := by
  refine .change fun st a st' hp he => ?_
  obtain rfl : f st = st' := by simpa using he
  exact hf st hp

theorem Leads.guarded (h : Leads P x Q) : Leads P (guarded x) Q :=
  Carries.guarded (fun _ => trivial) h

end Leads

end TeamAccess.Action
