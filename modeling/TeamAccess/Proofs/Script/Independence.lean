import TeamAccess.Proofs.Reachable
import TeamAccess.Proofs.Service.Confined

/-! # Steps on different principals

A step that adds or removes a member, synchronizes a user or grants to one concerns the principal
that it names: it looks at the rows of no other principal and changes none of them. So steps that
concern different principals can change places, and the rows after two interleaved sequences of
such steps do not depend on how they were interleaved.
-/

namespace TeamAccess

open TeamAccess.Action

variable {P : PrincipalKind × Uuid → Prop} {s t : Store} {r r₁ r₂ : PrincipalRecord} {step : Step}

/-- The principal whose memberships or grants a command changes. -/
def Command.subject? : Command → Option PrincipalRef
  | .addMember ref _ | .removeMember ref _ | .sync ref _ | .grantUser ref _ => some ref
  | _ => none

/-- The kind and the identifier of a principal. -/
def PrincipalRecord.owner (r : PrincipalRecord) : PrincipalKind × Uuid := (r.kind, r.id)

/-- A step without an outage that is about the memberships or the grants of a principal, however it
refers to it: by name, as a copy under another name, or by the identifier alone. -/
structure Step.Concerns (s : Store) (r : PrincipalRecord) (step : Step) : Prop where
  calm : step.outage = none
  named : ∃ ref p, step.command.subject? = some ref ∧ s.principalOf? ref = some (some p) ∧
    p.kind = r.kind ∧ p.id = some r.id

/-- What references to principals name does not depend on memberships and direct grants. -/
theorem Store.Agree.principalOf? (h : Store.Agree P s t) (ref : PrincipalRef) :
    t.principalOf? ref = s.principalOf? ref := by
  refine h.frozen (·.principalOf? ref) fun s m g => ?_
  have handles (f : PrincipalHandle → Option PrincipalHandle) (kind : PrincipalKind)
      (name : String) :
      (Store.resolve? { s with memberships := m, userGrants := g } kind name).map (f ·.handle) =
        (s.resolve? kind name).map (f ·.handle) := by
    cases kind <;> simp only [Store.resolve?, Option.map_map] <;> rfl
  cases ref with
  | stored kind name => exact Option.bind_congr fun k _ => handles some k name
  | copyOf kind name stored =>
    exact Option.bind_congr fun k _ => handles (fun p => some ⟨k, p.id, name, false⟩) k stored
  | _ => rfl

theorem Step.Concerns.agree (h : step.Concerns s r) (ha : Store.Agree P s t) :
    step.Concerns t r :=
  { h with named := by simpa only [ha.principalOf?] using h.named }

namespace Script

section Lookups

theorem principal?_confines {ref : PrincipalRef} {p : PrincipalHandle}
    (h : s.principalOf? ref = some (some p)) :
    Confines P s t (· = some p) (principal? ref) := by
  refine .reads (r := fun _ => .ok (some p)) (fun st hst => ?_) (fun _ _ _ => rfl) ?_
  · obtain ⟨f, hx⟩ := @principal?_finds st ref
    rwa [hst.principalOf?, h] at hx
  · rintro st a - ⟨⟩
    rfl

theorem found_confined {α : Type} (what : Named) (o : Option α) :
    Confined P s t (found what o) := by
  cases o with
  | none => exact .throw _
  | some a => exact .pure trivial

theorem storedTeam_confined (name : String) : Confined P s t (storedTeam name) :=
  (Confined.looks (fun _ => Teams.find?_reads name) fun _ _ _ => rfl).bind fun o =>
    (found_confined _ o).bind fun _ => .pure trivial

theorem team_confined (ref : TeamRef) : Confined P s t (team ref) := by
  cases ref with
  | ghost name id => exact .pure trivial
  | _ => exact (storedTeam_confined _).bind fun _ => .pure trivial

theorem permission_confined (name : String) : Confined P s t (permission name) :=
  (Confined.looks (fun _ => Permissions.find?_reads name) fun _ _ _ => rfl).bind fun o =>
    found_confined _ o

end Lookups

theorem during_confined {α : Type} {act : Action α} (h : Confined P s t act) :
    Confined P s t (during none act) := by
  intro σ τ hp
  rw [during_apply, during_apply]
  have hx := h { σ with outage := none } { τ with outage := none }
    { hp with left := rfl, right := rfl }
  revert hx
  generalize act { σ with outage := none } = y, act { τ with outage := none } = z
  rintro (⟨-, hp⟩ | hp)
  · exact .answers trivial { hp with left := rfl, right := rfl }
  · exact .fails { hp with left := rfl, right := rfl }

/-- A change of the edge between a principal and a team that are looked up first. -/
theorem edge_confined {change : PrincipalHandle → TeamHandle → Action Bool} {ref : PrincipalRef}
    {p : PrincipalHandle} (hr : s.principalOf? ref = some (some p)) (teamRef : TeamRef)
    (hx : ∀ team, Confined P s t (change p team)) :
    Confined P s t (do
      let p ← principal? ref
      let t ← team teamRef
      let p ← subject "identifier" p
      return Answer.flag (← during none (change p t))) := by
  refine (principal?_confines hr).bind fun _ he => (team_confined teamRef).bind fun team => ?_
  subst he
  exact (during_confined (hx team)).bind fun _ => .pure trivial

/-- A command is confined to the principal that it is about. -/
theorem perform_confined {command : Command} {ref : PrincipalRef} {p : PrincipalHandle}
    (hs : command.subject? = some ref) (hr : s.principalOf? ref = some (some p))
    (hp : p.Among P) : Confined P s t (perform none command) := by
  cases command with
  | addMember ref teamRef =>
    cases hs
    exact edge_confined hr teamRef (MembershipService.add_confined hp)
  | removeMember ref teamRef =>
    cases hs
    exact edge_confined hr teamRef (MembershipService.remove_confined hp)
  | sync ref groups =>
    cases hs
    refine (principal?_confines hr).bind fun _ he => ?_
    subst he
    refine (Synchronization.refuseLoneText_confined groups).bind fun _ => ?_
    exact (during_confined (Synchronization.synchronize_confined hp groups)).bind fun _ =>
      .pure trivial
  | grantUser ref name =>
    cases hs
    refine (principal?_confines hr).bind fun _ he => (permission_confined name).bind fun q => ?_
    subst he
    exact (Permissions.grantToUser_confined hp q).bind fun _ => .pure trivial
  | _ => cases hs

section Steps

/-- On stores that agree on the principals that a step is confined to, it has the same result and
makes the same change. -/
theorem runSingle_parallel (hc : s.missing = []) (h : Store.Agree P s t)
    (hx : Confined P s t (perform step.outage step.command)) :
    (runSingle step t).1 = (runSingle step s).1 ∧
      Store.Parallel P s t (runSingle step s).2 (runSingle step t).2 := by
  have start (s : Store) : { Session.start s with events := [], outage := none } =
      Session.start s := rfl
  have alike := hx _ _ (.start hc h)
  unfold runSingle runStep
  rw [start, start]
  revert alike
  generalize perform step.outage step.command (Session.start s) = y,
    perform step.outage step.command (Session.start t) = z
  rintro (⟨-, hp⟩ | hp)
  · exact ⟨by simp only [hp.events], hp.current⟩
  · exact ⟨by simp only [hp.events], hp.durable⟩

/-- What was done to other principals before makes no difference to a step. -/
theorem concerns_parallel (hs : step.Concerns s r) (hc : s.missing = [])
    (h : Store.Agree (· = r.owner) s t) :
    (runSingle step t).1 = (runSingle step s).1 ∧
      Store.Parallel (· = r.owner) s t (runSingle step s).2 (runSingle step t).2 := by
  obtain ⟨calm, ref, p, hn, hr, hk, hi⟩ := hs
  have among : p.Among (· = r.owner) := by
    simp [PrincipalHandle.Among, hk, hi, PrincipalRecord.owner]
  exact runSingle_parallel hc h (calm ▸ perform_confined hn hr among)

end Steps

section Listing

theorem listUsers_confined (k : UserKind) :
    Confined (fun _ => True) s t (Principals.listUsers (.user k)) := by
  refine .reads (fun _ => Principals.listUsers_reads k) fun s t h => ?_
  rw [h.frozen (·.allUsers k) fun _ _ _ => rfl]
  exact congrArg _ (List.map_congr_left fun v _ => h.userRecord trivial)

theorem loadKeys_confined (keys : List ApiKey) : Confined (fun _ => True) s t (loadKeys keys) :=
  .reads (fun _ => loadKeys_reads keys) fun _ _ h =>
    congrArg _ (List.map_congr_left fun _ _ => h.keyRecord trivial)

theorem describe_confined (record : TeamRecord) : Confined P s t (describe record) :=
  (Confined.looks (fun _ => Groups.dnsForTeam_reads _) fun _ _ _ => rfl).bind fun _ =>
    (Confined.looks (fun _ => Groups.namesForTeam_reads _) fun _ _ _ => rfl).bind fun _ =>
      .pure trivial

theorem inventory_confined : Confined (fun _ => True) s t inventory := by
  refine (Confined.looks (fun _ => Permissions.list_reads) fun _ _ _ => rfl).bind fun _ => ?_
  refine (Confined.looks (fun _ => Teams.list_reads) fun _ _ _ => rfl).bind fun teams => ?_
  refine (Confined.mapM fun team _ => describe_confined team).bind fun _ => ?_
  refine (Confined.mapM fun kind _ => (listUsers_confined kind).bind fun _ =>
    .pure trivial).bind fun _ => ?_
  refine (Confined.looks (fun _ => .query _ _) fun _ _ _ => rfl).bind fun keys => ?_
  exact (loadKeys_confined keys).bind fun _ =>
    (Confined.looks (fun _ => Groups.list_reads) fun _ _ _ => rfl).bind fun _ => .pure trivial

/-- The order of the rows is not seen from outside: stores with the same rows are shown alike. -/
theorem dump_eq (h : Store.SameRows s t) (hc : s.missing = []) :
    (runSingle ⟨.dump, none⟩ t).1 = (runSingle ⟨.dump, none⟩ s).1 :=
  (runSingle_parallel hc (P := fun _ => True) h.agree
    (inventory_confined.bind fun _ => .pure trivial)).1

end Listing

section Runs

/-- A list that two others have been merged into, each in its own order. -/
inductive Interleaves {α : Type} : List α → List α → List α → Prop where
  | nil : Interleaves [] [] []
  | left {xs ys zs : List α} (a : α) : Interleaves xs ys zs → Interleaves (a :: xs) ys (a :: zs)
  | right {xs ys zs : List α} (b : α) : Interleaves xs ys zs → Interleaves xs (b :: ys) (b :: zs)

/-- A store that agrees with one store on some principals, with another one on others, and with
where both come from on the rest. -/
structure Merges (P Q : PrincipalKind × Uuid → Prop) (s x y z : Store) : Prop where
  first : Store.Agree P x z
  second : Store.Agree Q y z
  rest : Store.Agree (fun w => ¬ P w ∧ ¬ Q w) s z

variable {Q : PrincipalKind × Uuid → Prop} {x y z z' : Store} {xs ys zs zs' : List Step}

namespace Merges

theorem symm (h : Merges P Q s x y z) : Merges Q P s y x z :=
  ⟨h.second, h.first, h.rest.imp fun _ hw => hw.symm⟩

/-- What two stores are merged into is determined, up to the order of the rows. -/
theorem unique (h : Merges P Q s x y z) (h' : Merges P Q s x y z') :
    Store.Agree (fun _ => True) z z' := by
  have all := ((h.first.symm.trans h'.first).or (h.second.symm.trans h'.second)).or
    (h.rest.symm.trans h'.rest)
  exact all.imp fun w _ => by tauto

end Merges

/-- A step that concerns the first principal is made on its side and in the merged store. -/
theorem Merges.advance {a : Step} (h : Merges (· = r₁.owner) (· = r₂.owner) s x y z)
    (hc : s.missing = []) (hne : r₁.owner ≠ r₂.owner) (ha : a.Concerns s r₁) :
    Merges (· = r₁.owner) (· = r₂.owner) s (runSingle a x).2 y (runSingle a z).2 := by
  have rows : Store.Agree (fun _ => False) s x :=
    (h.rest.imp fun _ => False.elim).trans (h.first.symm.imp fun _ => False.elim)
  have complete : x.missing = [] := (rows.frozen (·.missing) fun _ _ _ => rfl).trans hc
  obtain ⟨-, hp⟩ := concerns_parallel (ha.agree rows) complete h.first
  refine ⟨hp.same, h.second.trans (hp.right.imp ?_), h.rest.trans (hp.right.imp fun _ => And.left)⟩
  rintro w rfl
  exact hne.symm

/-- Where two sequences of steps on different principals are interleaved, each principal ends as if
there had been its own sequence only. -/
theorem run_merges (hc : s.missing = []) (hne : r₁.owner ≠ r₂.owner)
    (hxs : ∀ a ∈ xs, a.Concerns s r₁) (hys : ∀ b ∈ ys, b.Concerns s r₂)
    (hi : Interleaves xs ys zs) (h : Merges (· = r₁.owner) (· = r₂.owner) s x y z) :
    Merges (· = r₁.owner) (· = r₂.owner) s (run (xs.map .single) x).2 (run (ys.map .single) y).2
      (run (zs.map .single) z).2 := by
  -- all three stores move on: a step is made on its own side and in the merged store
  induction hi generalizing x y z with
  | nil => exact h
  | left a _ ih =>
    exact ih (fun a ha => hxs a (by simp [ha])) hys (h.advance hc hne (hxs a (by simp)))
  | right b _ ih =>
    exact ih hxs (fun b hb => hys b (by simp [hb]))
      (h.symm.advance hc hne.symm (hys b (by simp))).symm

theorem run_reachable (h : Reachable s) (steps : List Step) :
    Reachable (run (steps.map .single) s).2 := by
  induction steps generalizing s with
  | nil => exact h
  | cons step rest ih => exact ih (.script (.single step) h)

end Runs

/-- A step has the result that it would have had before one that concerns another principal. -/
theorem result_apart {a b : Step} (hc : s.missing = []) (hne : r₁.owner ≠ r₂.owner)
    (ha : a.Concerns s r₁) (hb : b.Concerns s r₂) :
    (runSingle a (runSingle b s).2).1 = (runSingle a s).1 := by
  obtain ⟨-, other⟩ := concerns_parallel hb hc (.refl _ s)
  refine (concerns_parallel ha hc (other.left.imp ?_)).1
  rintro w rfl
  exact hne

/-- Stored principals of one kind and one identifier have one name. -/
theorem owner_ne (h₁ : s.record? r₁.handle = some r₁) (h₂ : s.record? r₂.handle = some r₂)
    (hne : r₁.kind ≠ r₂.kind ∨ r₁.handle.name ≠ r₂.handle.name) : r₁.owner ≠ r₂.owner := by
  intro he
  obtain ⟨hk, hi⟩ := Prod.mk.inj he
  have same : s.record? r₁.handle = s.record? r₂.handle := by
    unfold Store.record?
    rw [r₁.id_handle, r₂.id_handle, hi]
    exact congrArg (fun k => (some r₂.id).bind (s.recordById? k)) hk
  obtain rfl : r₁ = r₂ := Option.some.inj (h₁.symm.trans (same.trans h₂))
  simp at hne

/-- Steps that add or remove a member, synchronize a user or grant to one are independent if they
concern different stored principals, whatever else they name. In either order each has the same
result, and the store holds the same rows after both. So the rows after any interleaving of two
sequences of such steps, and what is shown of them, depend on the two sequences only. -/
theorem principals_independent (h : Reachable s) (hc : s.isComplete = true)
    (h₁ : s.record? r₁.handle = some r₁) (h₂ : s.record? r₂.handle = some r₂)
    (hne : r₁.kind ≠ r₂.kind ∨ r₁.handle.name ≠ r₂.handle.name) :
    (∀ a b : Step, a.Concerns s r₁ → b.Concerns s r₂ →
      (runSingle a (runSingle b s).2).1 = (runSingle a s).1 ∧
      (runSingle b (runSingle a s).2).1 = (runSingle b s).1 ∧
      Store.SameRows (runSingle b (runSingle a s).2).2 (runSingle a (runSingle b s).2).2) ∧
    ∀ xs ys zs zs' : List Step, (∀ a ∈ xs, a.Concerns s r₁) → (∀ b ∈ ys, b.Concerns s r₂) →
      Interleaves xs ys zs → Interleaves xs ys zs' →
      let after := (run (zs.map .single) s).2
      let after' := (run (zs'.map .single) s).2
      Store.SameRows after after' ∧
        (runSingle ⟨.dump, none⟩ after').1 = (runSingle ⟨.dump, none⟩ after).1 := by
  have complete : s.missing = [] := List.isEmpty_iff.mp hc
  have apart := owner_ne h₁ h₂ hne
  have start : Merges (· = r₁.owner) (· = r₂.owner) s s s s := ⟨.refl _ s, .refl _ s, .refl _ s⟩
  have together (xs ys zs zs' : List Step) (hxs : ∀ a ∈ xs, a.Concerns s r₁)
      (hys : ∀ b ∈ ys, b.Concerns s r₂) (hi : Interleaves xs ys zs) (hi' : Interleaves xs ys zs') :
      Store.SameRows (run (zs.map .single) s).2 (run (zs'.map .single) s).2 := by
    have merged := run_merges complete apart hxs hys hi start
    exact (merged.unique (run_merges complete apart hxs hys hi' start)).sameRows
      (fun _ => trivial) (run_reachable h zs).distinct (run_reachable h zs').distinct
  refine ⟨fun a b ha hb => ⟨?_, ?_, ?_⟩, fun xs ys zs zs' hxs hys hi hi' => ?_⟩
  · exact result_apart complete apart ha hb
  · exact result_apart complete apart.symm hb ha
  · exact together [a] [b] [a, b] [b, a] (by simpa using ha) (by simpa using hb)
      (.left a (.right b .nil)) (.right b (.left a .nil))
  · have same := together xs ys zs zs' hxs hys hi hi'
    have rest := (run_merges complete apart hxs hys hi start).rest
    exact ⟨same, dump_eq same ((rest.frozen (·.missing) fun _ _ _ => rfl).trans complete)⟩

/-- Synchronizing a directory user into the team that an API key leaves. -/
theorem principals_independent_admins :
    let a : Step := ⟨.sync (.stored "LDAP" "ann") (.groups ["cn=admins"]), none⟩
    let b : Step := ⟨.removeMember (.stored "API_KEY" "k-1") (.stored "admins"), none⟩
    let c : Step := ⟨.grantUser (.stored "LDAP" "ann") Bootstrap.accessManagement, none⟩
    Reachable Sample.store ∧ Sample.store.isComplete = true ∧
      (runSingle a (runSingle b Sample.store).2).1 = (runSingle a Sample.store).1 ∧
      (runSingle b (runSingle a Sample.store).2).1 = (runSingle b Sample.store).1 ∧
      (runSingle b (runSingle a Sample.store).2).2.memberships =
        [Sample.ann.edge Sample.admins] ∧
      Store.SameRows (run ([a, c, b].map .single) Sample.store).2
        (run ([b, a, c].map .single) Sample.store).2 := by
  intro a b c
  let user : PrincipalRecord := .user (Sample.store.userRecord Sample.ann)
  let key : PrincipalRecord := .apiKey (Sample.store.keyRecord Sample.key)
  have ofUser : ∀ step ∈ [a, c], step.Concerns Sample.store user := by
    simp only [List.mem_cons, List.not_mem_nil, or_false]
    rintro step (rfl | rfl) <;> exact ⟨rfl, _, _, rfl, rfl, rfl, rfl⟩
  have ofKey : b.Concerns Sample.store key := ⟨rfl, _, _, rfl, rfl, rfl, rfl⟩
  obtain ⟨pairs, sequences⟩ := @principals_independent Sample.store user key Sample.reachable rfl
    rfl rfl (.inl (by decide))
  obtain ⟨first, second, -⟩ := pairs a b (ofUser a (by simp)) ofKey
  refine ⟨Sample.reachable, rfl, first, second, by decide +kernel, ?_⟩
  exact (sequences [a, c] [b] _ _ ofUser (by simpa using ofKey)
    (.left a (.left c (.right b .nil))) (.right b (.left a (.left c .nil)))).1

end Script

end TeamAccess
