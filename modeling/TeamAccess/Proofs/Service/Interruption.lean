import TeamAccess.Proofs.Service.Synchronization

/-! # Interrupted synchronization

Wherever an outage cuts a run of a synchronization off, only edges to teams that have to go are
missing, and nothing is added before all of these are gone. Repeating the run with the same groups
ends where a run without the outage would have ended.
-/

namespace TeamAccess

open TeamAccess.Action

/-- What a session has committed, and what it sees. -/
def Session.At (d c : Store) (s : Session) : Prop := s.durable = d ∧ s.current = c

namespace Action

variable {α β : Type} {d c : Store}

/-- From some committed and current rows, whatever the outage: an action gives this answer and
leaves these rows, or it fails where the committed rows satisfy `C`. -/
def Runs (d c : Store) (act : Action α) (a : α) (d' c' : Store) (C : Store → Prop) : Prop :=
  Ensures (Session.At d c) act (fun b s => b = a ∧ s.At d' c') fun _ s => C s.durable

namespace Runs

variable {d' c' d'' c'' st : Store} {C : Store → Prop} {x : Action α} {a : α} {b : β}
  {xs : List α}

theorem pure (a : α) : Runs d c (pure a) a d c C := fun _ hs => ⟨rfl, hs⟩

theorem record (e : Event) : Runs d c (record e) () d c C := fun _ hs => ⟨rfl, hs⟩

theorem bind {g : α → Action β} (hx : Runs d c x a d' c' C) (hg : Runs d' c' (g a) b d'' c'' C) :
    Runs d c (x >>= g) b d'' c'' C := by
  refine Ensures.bind hx fun a' s => ?_
  rintro ⟨rfl, hs⟩
  exact hg s hs

theorem cast {a₁ : α} {d₁ c₁ : Store} (hx : Runs d c x a d' c' C) (ha : a = a₁) (hd : d' = d₁)
    (hc : c' = c₁) : Runs d c x a₁ d₁ c₁ C := ha ▸ hd ▸ hc ▸ hx

theorem discard (hx : Runs d c x a d' c' C) : Runs d c (discard x) () d' c' C := by
  intro s hs
  have he : (Functor.discard x : Action Unit) s = (Function.const α () <$> x) s := rfl
  rw [he, map_apply]
  have h := hx s hs
  revert h
  cases x s with
  | ok a' s' => exact fun h => ⟨rfl, h.2⟩
  | error f s' => exact id

theorem guarded (hx : Runs d c x a d' c' C) : Runs d c (guarded x) a d' c' C := by
  refine Ensures.tryCatch hx fun f s hs => ?_
  cases f with
  | store fault => exact hs
  | _ => exact hs

theorem reads (hx : Reads c x (.ok a)) (hC : C d) : Runs d c x a d c C := by
  rintro s ⟨rfl, rfl⟩
  rcases hx.cases with ⟨f, o, he⟩ | ⟨a', o, ha, -, he⟩
  · rw [he]
    exact hC
  · rw [he]
    cases ha
    exact ⟨rfl, rfl, rfl⟩

theorem update (tables : List Table) (f : Store → Store) (hC : C d) :
    Runs d c (update tables f) () d (f c) C := by
  refine (reads (Reads.require tables) hC).bind ?_
  rintro s ⟨rfl, rfl⟩
  exact ⟨rfl, rfl, rfl⟩

theorem commit (hC : C d) : Runs d c commit () c c C := by
  refine (reads (Reads.attempt .commit) hC).bind ?_
  rintro s ⟨-, rfl⟩
  exact ⟨rfl, rfl, rfl⟩

theorem records (xs : List α) (event : α → Event) :
    Runs d c (xs.forM fun a => Action.record (event a)) () d c C := by
  induction xs with
  | nil => exact pure ()
  | cons a xs ih => exact (record (event a)).bind ih

/-- A loop whose steps commit: its invariant covers every store at which it can be cut off. -/
theorem forM {f : α → Action Unit} {step : Store → α → Store} {I : Store → Prop}
    (h : ∀ st a, a ∈ xs → I st → Runs st st (f a) () (step st a) (step st a) C)
    (hI : ∀ st a, a ∈ xs → I st → I (step st a)) (hs : I st) :
    Runs st st (xs.forM f) () (xs.foldl step st) (xs.foldl step st) C := by
  induction xs generalizing st with
  | nil => exact pure ()
  | cons a xs ih =>
    refine (h st a (by simp) hs).bind (ih (fun st b hb => h st b (by simp [hb]))
      (fun st b hb => hI st b (by simp [hb])) (hI st a (by simp) hs))

theorem filterM {f : α → Action Bool} {p : α → Bool} (h : ∀ a ∈ xs, Runs d c (f a) (p a) d c C) :
    Runs d c (xs.filterM f) (xs.filter p) d c C := by
  have kept : ∀ acc, Runs d c (xs.filterAuxM f acc) ((xs.filter p).reverse ++ acc) d c C := by
    induction xs with
    | nil => exact fun acc => pure acc
    | cons a xs ih =>
      intro acc
      have hr := ih (fun b hb => h b (by simp [hb])) (cond (p a) (a :: acc) acc)
      have he : ((a :: xs).filter p).reverse ++ acc =
          (xs.filter p).reverse ++ cond (p a) (a :: acc) acc := by
        cases hp : p a <;> simp [hp]
      rw [he]
      exact (h a (by simp)).bind hr
  have reversed : (xs.filter p).reverse.reverse = xs.filter p := List.reverse_reverse _
  have all := kept []
  rw [List.append_nil] at all
  exact reversed ▸ all.bind (pure _)

end Runs

end Action

section Edges

variable {st : Store} {C : Store → Prop} {p : PrincipalHandle} {r : PrincipalRecord}
  {team : TeamHandle} {t : Team}

section

variable (hr : st.record? p = some r) (hC : C st)

include hr hC

theorem Principals.addToTeam_runs (ht : team.id.bind st.teamById? = some t) :
    Runs st st (addToTeam p team) (!decide (⟨r.kind, r.id, t.id⟩ ∈ st.memberships)) st
      (st.join ⟨r.kind, r.id, t.id⟩) C := by
  have stored := Store.mem_teams_of_bind ht
  have target : Reads st (target team) (.ok t) := (target_reads team).cast (by rw [ht]; rfl)
  refine (Runs.reads (.attempt _) hC).bind ((Runs.reads (lock_reads hr) hC).bind
    ((Runs.reads target hC).bind ?_))
  rw [Store.teams_of_record? hr, Store.any_teamsOf stored]
  by_cases he : ⟨r.kind, r.id, t.id⟩ ∈ st.memberships
  · rw [Store.join_of_mem he, if_pos (by simpa using he)]
    exact (Runs.pure false).cast (by simp [he]) rfl rfl
  · rw [if_neg (by simpa using he)]
    exact ((Runs.update _ _ hC).bind (.pure true)).cast (by simp [he]) rfl rfl

theorem Principals.removeFromTeam_runs (ht : t ∈ st.teams) :
    Runs st st (removeFromTeam p t.handle) (decide (⟨r.kind, r.id, t.id⟩ ∈ st.memberships)) st
      (st.leave ⟨r.kind, r.id, t.id⟩) C := by
  refine (Runs.reads (.attempt _) hC).bind ((Runs.reads (lock_reads hr) hC).bind ?_)
  simp only [Team.handle]
  rw [Store.teams_of_record? hr, Store.any_teamsOf ht]
  by_cases he : ⟨r.kind, r.id, t.id⟩ ∈ st.memberships
  · rw [if_neg (by simpa using he)]
    exact ((Runs.update _ _ hC).bind (.pure true)).cast (by simp [he]) rfl rfl
  · rw [Store.leave_of_not_mem he, if_pos (by simpa using he)]
    exact (Runs.pure false).cast (by simp [he]) rfl rfl

namespace MembershipService

/-- Adding a member adds the edge for good or leaves the committed rows as they are. -/
theorem add_runs (ht : team.id.bind st.teamById? = some t) :
    Runs st st (add p team) (!decide (⟨r.kind, r.id, t.id⟩ ∈ st.memberships))
      (st.join ⟨r.kind, r.id, t.id⟩) (st.join ⟨r.kind, r.id, t.id⟩) C := by
  refine (Runs.reads (.attempt _) hC).bind ?_
  refine Runs.bind (.guarded ?_) ((Runs.record _).bind (.pure _))
  refine (Principals.addToTeam_runs hr hC ht).bind ?_
  exact (Runs.commit hC).bind (.pure _)

/-- Removing a member removes the edge for good or leaves the committed rows as they are. -/
theorem remove_runs (ht : t ∈ st.teams) :
    Runs st st (remove p t.handle) (decide (⟨r.kind, r.id, t.id⟩ ∈ st.memberships))
      (st.leave ⟨r.kind, r.id, t.id⟩) (st.leave ⟨r.kind, r.id, t.id⟩) C := by
  refine (Runs.reads (.attempt _) hC).bind ?_
  refine Runs.bind (.guarded ?_) ((Runs.record _).bind (.pure _))
  refine (Principals.removeFromTeam_runs hr hC ht).bind ?_
  exact (Runs.commit hC).bind (.pure _)

end MembershipService

end

end Edges

namespace GroupMapping

variable {st : Store} {C : Store → Prop}

theorem teamsForGroup_runs (hC : C st) (source : GroupSource) (group : String) :
    Runs st st (teamsForGroup source group) (st.teamsFor group source) st st C := by
  cases source with
  | ldap =>
    refine (Runs.reads (Groups.teamsForDn_reads group) hC).bind ?_
    split
    · exact (Runs.record _).bind (.pure _)
    · exact .pure _
  | oidc =>
    refine (Runs.reads (Groups.find?_reads group) hC).bind ?_
    unfold Store.teamsFor
    cases st.oidcGroup? group with
    | none => exact (Runs.record _).bind (.pure [])
    | some g => exact .reads (Groups.teamsForGroup_reads g) hC

end GroupMapping

namespace Synchronization

variable {s st d : Store} {u : User} {source : GroupSource} {asserted : List String} {t : Team}
  {C : Store → Prop}

/-- What a run on `s` can have committed when it is cut off: memberships of the user in stored teams
differ, those that stay are there, and either none has come yet or all that have to go are gone. -/
structure Cut (s : Store) (u : User) (source : GroupSource) (asserted : List String)
    (d : Store) : Prop where
  keeps : d.Keeps u
  rows : d = { s with memberships := d.memberships }
  others : (d.memberships.filter fun e => decide (∀ t ∈ s.teams, e ≠ u.edge t)) =
    s.memberships.filter fun e => decide (∀ t ∈ s.teams, e ≠ u.edge t)
  kept : ∀ t ∈ s.teams, u.edge t ∈ s.memberships → s.isStale source asserted t = false →
    u.edge t ∈ d.memberships
  within : (∀ t ∈ s.teams, u.edge t ∈ d.memberships → u.edge t ∈ s.memberships) ∨
    ∀ t ∈ s.teams, u.edge t ∈ d.memberships → ∃ g ∈ asserted, s.Mapped g t.id source

/-- None has come yet. -/
def Leaving (s : Store) (u : User) (source : GroupSource) (asserted : List String)
    (d : Store) : Prop :=
  Cut s u source asserted d ∧
    ∀ t ∈ s.teams, u.edge t ∈ d.memberships → u.edge t ∈ s.memberships

/-- All that have to go are gone. -/
def Joining (s : Store) (u : User) (source : GroupSource) (asserted : List String)
    (d : Store) : Prop :=
  Cut s u source asserted d ∧
    ∀ t ∈ s.teams, u.edge t ∈ d.memberships → ∃ g ∈ asserted, s.Mapped g t.id source

section Invariants

theorem leaving_start (h : s.Keeps u) : Leaving s u source asserted s :=
  ⟨⟨h, rfl, rfl, fun _ _ he _ => he, .inl fun _ _ => id⟩, fun _ _ => id⟩

theorem Leaving.leave (h : Leaving s u source asserted d) (hs : s.Distinct)
    (ht : t ∈ s.staleTeams u source asserted) :
    Leaving s u source asserted (d.leave (u.edge t)) := by
  obtain ⟨hm, hst⟩ := List.mem_filter.mp ht
  have stored : t ∈ s.teams := (Store.mem_teamsOf.mp hm).1
  have gone : ∀ t' ∈ s.teams, u.edge t' ∈ (d.leave (u.edge t)).memberships →
      u.edge t' ∈ s.memberships := fun t' ht' he =>
    h.2 t' ht' (List.mem_filter.mp he).1
  refine ⟨⟨h.1.keeps.leave _, ?_, ?_, ?_, .inl gone⟩, gone⟩
  · rw [h.1.rows]
    rfl
  · rw [← h.1.others, Store.leave, List.filter_filter]
    refine List.filter_congr fun e _ => ?_
    rw [Bool.eq_iff_iff, Bool.and_eq_true, decide_eq_true_eq, decide_eq_true_eq]
    exact ⟨fun he => he.1, fun he => ⟨he, he t stored⟩⟩
  · intro t' ht' he hn
    refine List.mem_filter.mpr ⟨h.1.kept t' ht' he hn, decide_eq_true fun hc => ?_⟩
    rw [edge_inj hs ht' stored hc, hst] at hn
    exact absurd hn (by simp)

/-- Once the edges to all teams that have to go are removed, the others are to teams that an
asserted group reaches. -/
theorem Leaving.joining (h : Leaving s u source asserted d)
    (hd : ∀ t ∈ s.staleTeams u source asserted, u.edge t ∉ d.memberships) :
    Joining s u source asserted d := by
  refine ⟨h.1, fun t ht he => ?_⟩
  refine mapped_of_not_isStale ?_
  by_contra hst
  refine hd t (List.mem_filter.mpr ⟨Store.mem_teamsOf.mpr ⟨ht, h.2 t ht he⟩, ?_⟩) he
  simpa using hst

theorem Joining.join (h : Joining s u source asserted d) (hs : s.Distinct)
    (ht : t ∈ s.targets source asserted) : Joining s u source asserted (d.join (u.edge t)) := by
  obtain ⟨stored, hg⟩ := (mem_targets hs).mp ht
  have mem : ∀ e, e ∈ (d.join (u.edge t)).memberships ↔ e ∈ d.memberships ∨ e = u.edge t := by
    intro e
    rw [Store.join_eq_joined, Store.mem_joined, List.mem_singleton]
  have reached : ∀ t' ∈ s.teams, u.edge t' ∈ (d.join (u.edge t)).memberships →
      ∃ g ∈ asserted, s.Mapped g t'.id source := by
    intro t' ht' he
    rcases (mem _).mp he with he | he
    · exact h.2 t' ht' he
    · rw [edge_inj hs ht' stored he]
      exact hg
  refine ⟨⟨h.1.keeps.join _, ?_, ?_, ?_, .inr reached⟩, reached⟩
  · rw [Store.join_eq_joined, h.1.rows]
  · rw [← h.1.others, Store.join_eq_joined]
    refine Store.filter_joined fun e he => ?_
    obtain rfl := List.mem_singleton.mp he
    exact decide_eq_false fun hn => hn t stored rfl
  · exact fun t' ht' he hn => (mem _).mpr (.inl (h.1.kept t' ht' he hn))

theorem Cut.teams_eq (h : Cut s u source asserted d) : d.teams = s.teams := by rw [h.rows]

theorem Cut.teamsFor_eq (h : Cut s u source asserted d) (group : String) :
    d.teamsFor group source = s.teamsFor group source := by
  rw [h.rows]
  rfl

theorem Joining.joinTeams (h : Joining s u source asserted d) (hs : s.Distinct) {group : String}
    (hg : group ∈ asserted) : Joining s u source asserted (joinTeams u source d group) := by
  refine List.foldlRecOn (motive := Joining s u source asserted) _ _ h fun d' h' t ht => ?_
  rw [h.1.teamsFor_eq] at ht
  exact h'.join hs (List.mem_flatMap.mpr ⟨group, hg, ht⟩)

/-- The first loop leads from one phase to the other. -/
theorem joining_leaves (h : s.Keeps u) : Joining s u source asserted
    ((s.staleTeams u source asserted).foldl (fun st t => st.leave (u.edge t)) s) := by
  have left : Leaving s u source asserted
      ((s.staleTeams u source asserted).foldl (fun st t => st.leave (u.edge t)) s) :=
    List.foldlRecOn (motive := Leaving s u source asserted) _ _ (leaving_start h)
      fun d hd t ht => hd.leave h.distinct ht
  refine left.joining fun t ht he => ?_
  rw [foldl_leave_edges] at he
  exact of_decide_eq_true (List.mem_filter.mp he).2 (List.mem_map_of_mem ht)

theorem joining_synchronized (h : s.Keeps u) :
    Joining s u source asserted (s.synchronized u source asserted) := by
  rw [← loops_eq_synchronized]
  exact List.foldlRecOn (motive := Joining s u source asserted) _ _ (joining_leaves h)
    fun d hd group hg => hd.joinTeams h.distinct hg

end Invariants

section Loops

theorem isStale_runs (hC : C st) (principal : String) (t : Team) :
    Runs st st (isStale principal source asserted t) (st.isStale source asserted t) st st C := by
  refine (Runs.reads (GroupMapping.groupsForTeam_reads source t) hC).bind ?_
  unfold Store.isStale
  split
  · rename_i he
    rw [he]
    exact (Runs.record _).bind (.pure true)
  · rename_i he
    rw [absent_eq_isStale he]
    exact (Runs.records _ _).bind (.pure _)

theorem leaveAll_runs (h : s.Keeps u) (principal : String) :
    Runs s s (leaveAll principal u.handle source (s.staleTeams u source asserted)) ()
      ((s.staleTeams u source asserted).foldl (fun st t => st.leave (u.edge t)) s)
      ((s.staleTeams u source asserted).foldl (fun st t => st.leave (u.edge t)) s)
      (Cut s u source asserted) := by
  refine .forM (I := Leaving s u source asserted) ?_ ?_ (leaving_start h)
  · intro st t ht hst
    have stored : t ∈ st.teams :=
      hst.1.teams_eq ▸ (Store.mem_teamsOf.mp (List.mem_filter.mp ht).1).1
    exact (Runs.record _).bind
      (MembershipService.remove_runs hst.1.keeps.record? hst.1 stored).discard
  · exact fun st t ht hst => hst.leave h.distinct ht

theorem joinGroup_runs (hs : s.Distinct) (h : Joining s u source asserted st) (principal : String)
    {group : String} (hg : group ∈ asserted) :
    Runs st st (joinGroup principal u.handle source group) () (joinTeams u source st group)
      (joinTeams u source st group) (Cut s u source asserted) := by
  refine (GroupMapping.teamsForGroup_runs h.1 source group).bind ?_
  refine .forM (I := Joining s u source asserted) ?_ ?_ h
  · intro st' t ht hst
    rw [h.1.teamsFor_eq] at ht
    have stored : t ∈ st'.teams := hst.1.teams_eq ▸ ((Store.mem_teamsFor hs).mp ht).1
    have found : t.handle.id.bind st'.teamById? = some t :=
      hst.1.keeps.distinct.teamById?_eq_some_iff.mpr ⟨stored, rfl⟩
    exact (Runs.record _).bind
      (MembershipService.add_runs hst.1.keeps.record? hst.1 found).discard
  · intro st' t ht hst
    rw [h.1.teamsFor_eq] at ht
    exact hst.join hs (List.mem_flatMap.mpr ⟨group, hg, ht⟩)

theorem joinAll_runs (hs : s.Distinct) (h : Joining s u source asserted st) (principal : String) :
    Runs st st (asserted.forM (joinGroup principal u.handle source)) ()
      (asserted.foldl (joinTeams u source) st) (asserted.foldl (joinTeams u source) st)
      (Cut s u source asserted) := by
  refine .forM (I := Joining s u source asserted) ?_ ?_ h
  · exact fun st group hg hst => joinGroup_runs hs hst principal hg
  · exact fun st group hg hst => hst.joinTeams hs hg

end Loops

section Run

theorem run_runs (h : s.Keeps u) {p : PrincipalHandle}
    (hp : s.record? p = some (.user (s.userRecord u))) (source : GroupSource)
    (asserted : List String) :
    Runs s s (run p source asserted) (.user ((s.synchronized u source asserted).userRecord u))
      (s.synchronized u source asserted) (s.synchronized u source asserted)
      (Cut s u source asserted) := by
  have start : Cut s u source asserted s := (leaving_start h).1
  have turn : Joining s u source asserted _ := joining_leaves h
  have joins := joinAll_runs h.distinct turn p.identifier
  rw [loops_eq_synchronized] at joins
  have last : Cut s u source asserted (s.synchronized u source asserted) :=
    (joining_synchronized h).1
  refine (Runs.reads (Principals.reload_reads hp) start).bind ?_
  refine Runs.bind (.filterM fun t _ => isStale_runs start p.identifier t) ?_
  refine (leaveAll_runs h p.identifier).bind (joins.bind ?_)
  exact .reads (Principals.reload_reads last.keeps.record?) last

/-- Synchronizing a stored user leaves the synchronized store, or is cut off. -/
theorem synchronize_runs (h : s.Keeps u) {p : PrincipalHandle}
    (hp : s.record? p = some (.user (s.userRecord u))) (hs : u.kind.source? = some source)
    (groups : List String) :
    Runs s s (synchronize p (.groups groups))
      (.user ((s.synchronized u source (firsts groups)).userRecord u))
      (s.synchronized u source (firsts groups)) (s.synchronized u source (firsts groups))
      (Cut s u source (firsts groups)) := by
  have known : Runs s s (sourceOf p.kind) source s s (Cut s u source (firsts groups)) := by
    rw [Store.kind_of_record? hp]
    change Runs s s (sourceOf (.user u.kind)) source s s _
    simp only [sourceOf, PrincipalKind.userKind?, Option.bind_some, hs]
    exact .pure source
  refine Runs.bind (.pure ()) (known.bind (Runs.bind (.pure groups) ((Runs.record _).bind ?_)))
  exact (run_runs h hp _ _).guarded.bind ((Runs.record _).bind (.pure _))

end Run

section Repetition

variable (hs : s.Keeps u) (h : Cut s u source asserted d)

include h

theorem Cut.mapped_iff {g : String} {team : Uuid} :
    d.Mapped g team source ↔ s.Mapped g team source := by
  rw [h.rows]
  cases source <;> exact Iff.rfl

theorem Cut.synchronized_eq : d.synchronized u source asserted =
    { s.synchronized u source asserted with
      memberships := (d.synchronized u source asserted).memberships } := by
  have hd : d.synchronized u source asserted =
      { d with memberships := (d.synchronized u source asserted).memberships } := rfl
  rw [hd, h.rows]
  rfl

include hs

/-- A run that starts where another one was cut off ends with the same memberships. -/
theorem Cut.synchronized_perm :
    (d.synchronized u source asserted).memberships.Perm
      (s.synchronized u source asserted).memberships := by
  have again := (synchronized_keeps h.keeps source asserted).distinct.memberships
  have once := (synchronized_keeps hs source asserted).distinct.memberships
  refine (List.perm_ext_iff_of_nodup again once).mpr fun e => ?_
  by_cases he : ∀ t ∈ s.teams, e ≠ u.edge t
  · have outside (m : List Membership) :
        e ∈ m ↔ e ∈ m.filter fun e => decide (∀ t ∈ s.teams, e ≠ u.edge t) := by
      rw [List.mem_filter, and_iff_left (decide_eq_true he)]
    have hd : ((d.synchronized u source asserted).memberships.filter
        fun e => decide (∀ t ∈ s.teams, e ≠ u.edge t)) =
        d.memberships.filter fun e => decide (∀ t ∈ s.teams, e ≠ u.edge t) := by
      rw [← h.teams_eq]
      exact filter_synchronized h.keeps.distinct
    rw [outside, outside (s.synchronized u source asserted).memberships, hd, h.others,
      filter_synchronized hs.distinct]
  · push Not at he
    obtain ⟨t, ht, rfl⟩ := he
    have hd : t ∈ d.teams := h.teams_eq ▸ ht
    rw [edge_mem_synchronized hs.distinct ht, edge_mem_synchronized h.keeps.distinct hd]
    simp only [h.mapped_iff]

/-- A run that starts where another one was cut off answers the same. -/
theorem Cut.userRecord_eq :
    (d.synchronized u source asserted).userRecord u =
      (s.synchronized u source asserted).userRecord u := by
  have mem (e : Membership) := (h.synchronized_perm hs).mem_iff (a := e)
  rw [h.synchronized_eq]
  simp only [Store.userRecord, Store.teamsOf, Store.directPermissions, mem]

end Repetition

theorem isStale_eq_false_iff : s.isStale source asserted t = false ↔
    (∃ g, s.Mapped g t.id source) ∧ ∀ g, s.Mapped g t.id source → g ∈ asserted := by
  simp only [← Store.mem_groupsFor, Store.isStale, Bool.or_eq_false_iff]
  refine and_congr List.isEmpty_eq_false_iff_exists_mem ?_
  simp

/-- Whatever cuts a synchronization off, the user keeps every team whose groups are all asserted and
is in no team that it was not in, or else in no team that no asserted group reaches; no other row
changes. Repeating the run from there ends, up to the order of the rows, in the store in which a run
without the outage would have ended. -/
theorem synchronize_interrupted {s : Store} (hs : Reachable s) (hc : s.isComplete = true)
    (hu : u ∈ s.users) (hk : u.kind.source? = some source) (groups : List String)
    (outage : Option Outage) {f : Failure} {σ : Session}
    (h : synchronize u.handle (.groups groups) (Session.start s outage) = .error f σ) :
    (∀ t ∈ s.teams, u.edge t ∈ s.memberships → (∃ g, s.Mapped g t.id source) →
      (∀ g, s.Mapped g t.id source → g ∈ groups) → u.edge t ∈ σ.durable.memberships) ∧
    ((∀ t ∈ s.teams, u.edge t ∈ σ.durable.memberships → u.edge t ∈ s.memberships) ∨
      ∀ t ∈ s.teams, u.edge t ∈ σ.durable.memberships → ∃ g ∈ groups, s.Mapped g t.id source) ∧
    σ.durable = { s with memberships := σ.durable.memberships } ∧
    ((σ.durable.memberships.filter fun e => decide (∀ t ∈ s.teams, e ≠ u.edge t)) =
      s.memberships.filter fun e => decide (∀ t ∈ s.teams, e ≠ u.edge t)) ∧
    ∃ record σ₁ σ₂,
      synchronize u.handle (.groups groups) (Session.start s) = .ok record σ₁ ∧
      synchronize u.handle (.groups groups) (Session.start σ.durable) = .ok record σ₂ ∧
      σ₂.durable = { σ₁.durable with memberships := σ₂.durable.memberships } ∧
      σ₂.durable.memberships.Perm σ₁.durable.memberships := by
  have keeps : s.Keeps u := ⟨List.isEmpty_iff.mp hc, hs.distinct, hu⟩
  have cut : Cut s u source (firsts groups) σ.durable := by
    have runs := synchronize_runs keeps keeps.record? hk groups (Session.start s outage) ⟨rfl, rfl⟩
    rw [h] at runs
    exact runs
  refine ⟨fun t ht he hg ha => ?_, ?_, cut.rows, cut.others, ?_⟩
  · refine cut.kept t ht he (isStale_eq_false_iff.mpr ⟨hg, fun g hm => ?_⟩)
    exact mem_firsts.mpr (ha g hm)
  · simpa only [mem_firsts] using cut.within
  · have once := synchronize_moves keeps keeps.record? hk groups {} []
    have again := synchronize_moves cut.keeps cut.keeps.record? hk groups {} []
    rw [cut.userRecord_eq keeps] at again
    exact ⟨_, _, _, once, again, cut.synchronized_eq, cut.synchronized_perm keeps⟩


/-- A directory user has left a team that no group reaches when the driver gives out; repeating the
run makes up for the team that has not come. -/
theorem synchronize_interrupted_ann :
    Reachable Sample.store ∧ Sample.store.isComplete = true ∧ Sample.ann ∈ Sample.store.users ∧
      Sample.ann.kind.source? = some .ldap ∧
      let sync := synchronize Sample.ann.handle (.groups ["cn=admins"])
      let outage : Outage := ⟨.addMembership, .store .locked, 0⟩
      ∃ f σ, sync (Session.start Sample.store (some outage)) = .error f σ ∧
        Sample.ann.edge Sample.guests ∉ σ.durable.memberships ∧
        ∃ record σ₁ σ₂, sync (Session.start Sample.store) = .ok record σ₁ ∧
          sync (Session.start σ.durable) = .ok record σ₂ ∧
          σ₂.durable.memberships.Perm σ₁.durable.memberships := by
  have hu : Sample.ann ∈ Sample.store.users := by decide
  have hk : Sample.ann.kind.source? = some .ldap := rfl
  refine ⟨Sample.reachable, rfl, hu, hk, ?_⟩
  intro sync outage
  have failed : (match sync (Session.start Sample.store (some outage)) with
      | .ok _ _ => false
      | .error _ σ => decide (Sample.ann.edge Sample.guests ∉ σ.durable.memberships)) = true := by
    decide +kernel
  cases hx : sync (Session.start Sample.store (some outage)) with
  | ok record σ => simp [hx] at failed
  | error f σ =>
    obtain ⟨-, -, -, -, record, σ₁, σ₂, once, again, -, perm⟩ :=
      synchronize_interrupted Sample.reachable rfl hu hk ["cn=admins"] (some outage) hx
    rw [hx] at failed
    exact ⟨f, σ, rfl, of_decide_eq_true failed, record, σ₁, σ₂, once, again, perm⟩

end Synchronization

end TeamAccess
