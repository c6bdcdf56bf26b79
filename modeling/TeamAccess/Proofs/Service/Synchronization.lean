import TeamAccess.Proofs.Reachable
import TeamAccess.Proofs.Service.Membership
import TeamAccess.Service.Synchronization

/-! # Synchronization reaches the mapped teams

The first loop of a run removes memberships, some of which have to come back; the second one adds a
membership for every team that an asserted group reaches. Whatever was there before, the user ends
in exactly these teams, and no other row changes.
-/

namespace TeamAccess

open TeamAccess.Action

namespace Store

variable {s : Store} {u : User} {source : GroupSource} {asserted : List String} {t : Team}
  {m : List Membership}

/-- A user is among the rows of a store with all its tables, which are distinct. -/
structure Keeps (s : Store) (u : User) : Prop where
  complete : s.missing = []
  distinct : s.Distinct
  stored : u ∈ s.users

namespace Keeps

variable {e : Membership}

theorem record? (h : s.Keeps u) : s.record? u.handle = some (.user (s.userRecord u)) :=
  h.distinct.record?_handle h.stored

theorem leave (h : s.Keeps u) (e : Membership) : (s.leave e).Keeps u :=
  ⟨h.complete, h.distinct.leave e, h.stored⟩

theorem join (h : s.Keeps u) (e : Membership) : (s.join e).Keeps u := by
  refine ⟨?_, h.distinct.join e, ?_⟩ <;> rw [join_eq_joined]
  · exact h.complete
  · exact h.stored

theorem leaves (h : s.Keeps u) (teams : List Team) :
    (teams.foldl (fun s t => s.leave (u.edge t)) s).Keeps u :=
  List.foldlRecOn (motive := fun s : Store => s.Keeps u) _ _ h fun _ hs _ _ => hs.leave _

theorem joins (h : s.Keeps u) (teams : List Team) :
    (teams.foldl (fun s t => s.join (u.edge t)) s).Keeps u :=
  List.foldlRecOn (motive := fun s : Store => s.Keeps u) _ _ h fun _ hs _ _ => hs.join _

end Keeps

/-- Whether a team has to go: no group of the source reaches it, or one that is not asserted. -/
def isStale (s : Store) (source : GroupSource) (asserted : List String) (t : Team) : Bool :=
  (s.groupsFor t.id source).isEmpty || (s.groupsFor t.id source).any (!asserted.contains ·)

/-- The teams of a user that have to go. -/
def staleTeams (s : Store) (u : User) (source : GroupSource) (asserted : List String) :
    List Team :=
  (s.teamsOf (.user u.kind) u.id).filter (s.isStale source asserted)

/-- The teams that the asserted groups reach, group by group. -/
def targets (s : Store) (source : GroupSource) (asserted : List String) : List Team :=
  asserted.flatMap (s.teamsFor · source)

/-- The store after a user is synchronized. -/
def synchronized (s : Store) (u : User) (source : GroupSource) (asserted : List String) : Store :=
  let kept := s.memberships.filter (· ∉ (s.staleTeams u source asserted).map u.edge)
  { s with memberships := joined kept ((s.targets source asserted).map u.edge) }

end Store

namespace GroupMapping

variable {st : Store} {source : GroupSource}

theorem groupsForTeam_reads (source : GroupSource) (t : Team) :
    Reads st (groupsForTeam source t.handle) (.ok (st.groupsFor t.id source)) := by
  cases source with
  | ldap => exact Groups.dnsForTeam_reads t.handle
  | oidc => exact Groups.namesForTeam_reads t.handle

/-- A group that reaches nothing, or is not known, is recorded. -/
def unresolved (st : Store) (group : String) : GroupSource → List Event
  | .ldap => if (st.teamsForDn group).isEmpty then [.unresolvedGroup .ldap group] else []
  | .oidc => if (st.oidcGroup? group).isNone then [.unresolvedGroup .oidc group] else []

theorem teamsForGroup_moves (hm : st.missing = []) (source : GroupSource) (group : String) :
    Moves st (teamsForGroup source group) (st.teamsFor group source) st
      (unresolved st group source) := by
  cases source with
  | ldap =>
    refine .reads_bind hm (Groups.teamsForDn_reads group) ?_
    unfold unresolved
    dsimp only
    split
    · exact (Moves.record _).bind (.pure _)
    · exact .pure _
  | oidc =>
    refine .reads_bind hm (Groups.find?_reads group) ?_
    unfold unresolved Store.teamsFor
    cases hg : st.oidcGroup? group with
    | none => exact (Moves.record _).bind (.pure [])
    | some g => exact .reads hm (Groups.teamsForGroup_reads g)

end GroupMapping

namespace Synchronization

variable {st : Store} {u : User} {source : GroupSource} {asserted : List String} {t : Team}

/-- The events of deciding whether a team has to go. -/
def staleNotes (st : Store) (principal : String) (source : GroupSource) (asserted : List String)
    (t : Team) : List Event :=
  let mapped := st.groupsFor t.id source
  if mapped.isEmpty then [.syncTeamUnmapped principal source t.name]
  else (mapped.filter (!asserted.contains ·)).map (.syncGroupNotAsserted principal source t.name ·)

/-- A team that some group reaches has to go if one of its groups is not asserted. -/
theorem absent_eq_isStale (he : ¬ (st.groupsFor t.id source).isEmpty = true) :
    ((st.groupsFor t.id source).isEmpty ||
      (st.groupsFor t.id source).any (!asserted.contains ·)) =
        !((st.groupsFor t.id source).filter (!asserted.contains ·)).isEmpty := by
  rw [Bool.eq_iff_iff]
  simp [he]

theorem isStale_moves (hm : st.missing = []) (principal : String) (source : GroupSource)
    (asserted : List String) (t : Team) :
    Moves st (isStale principal source asserted t) (st.isStale source asserted t) st
      (staleNotes st principal source asserted t) := by
  refine .reads_bind hm (GroupMapping.groupsForTeam_reads source t) ?_
  unfold staleNotes Store.isStale
  dsimp only
  split
  · rename_i he
    rw [he]
    exact (Moves.record _).bind (.pure true)
  · rename_i he
    rw [absent_eq_isStale he]
    exact (Moves.records _ _).bind_pure _

theorem staleTeams_moves (hm : st.missing = []) (principal : String) (source : GroupSource)
    (asserted : List String) (teams : List Team) :
    Moves st (staleTeams principal source asserted teams)
      (teams.filter (st.isStale source asserted)) st
      (teams.flatMap (staleNotes st principal source asserted)) :=
  .filterM fun t _ => isStale_moves hm principal source asserted t

/-- The events of removing a user from a team. -/
def leaveNotes (principal : String) (u : User) (source : GroupSource) (s : Store) (t : Team) :
    List Event :=
  [.syncRemove principal source t.name,
    .membership (if u.edge t ∈ s.memberships then .removed else .unchanged) u.username
      (.user u.kind) t.name]

/-- The events of adding a user to a team that a group reaches. -/
def addNotes (principal : String) (u : User) (source : GroupSource) (group : String) (s : Store)
    (t : Team) : List Event :=
  [.syncAdd principal source t.name group,
    .membership (if u.edge t ∈ s.memberships then .unchanged else .added) u.username
      (.user u.kind) t.name]

/-- The store after a user has joined every team that a group reaches. -/
def joinTeams (u : User) (source : GroupSource) (s : Store) (group : String) : Store :=
  (s.teamsFor group source).foldl (fun s t => s.join (u.edge t)) s

/-- The events of joining every team that a group reaches. -/
def joinNotes (principal : String) (u : User) (source : GroupSource) (s : Store)
    (group : String) : List Event :=
  GroupMapping.unresolved s group source ++
    Moves.collected (fun s t => s.join (u.edge t)) (addNotes principal u source group) s
      (s.teamsFor group source)

section Loops

/-- The first loop removes the edges to the teams that have to go. -/
theorem leaveAll_moves (h : st.Keeps u) (principal : String) (source : GroupSource)
    {teams : List Team} (ht : ∀ t ∈ teams, t ∈ st.teams) :
    Moves st (leaveAll principal u.handle source teams) ()
      (teams.foldl (fun s t => s.leave (u.edge t)) st)
      (Moves.collected (fun s t => s.leave (u.edge t)) (leaveNotes principal u source) st
        teams) := by
  refine .forM (I := fun s => s.Keeps u ∧ s.teams = st.teams) ?_ ?_ ⟨h, rfl⟩
  · rintro s t hmem ⟨h, he⟩
    have stored : t ∈ s.teams := he ▸ ht t hmem
    exact (Moves.record _).bind
      (MembershipService.remove_moves h.complete h.record? rfl stored).discard
  · rintro s t - ⟨h, he⟩
    exact ⟨h.leave _, he⟩

theorem joinGroup_moves (h : st.Keeps u) (principal : String) (source : GroupSource)
    (group : String) :
    Moves st (joinGroup principal u.handle source group) () (joinTeams u source st group)
      (joinNotes principal u source st group) := by
  refine (GroupMapping.teamsForGroup_moves h.complete source group).bind ?_
  refine .forM (I := fun s => s.Keeps u ∧ s.teams = st.teams) ?_ ?_ ⟨h, rfl⟩
  · rintro s t hmem ⟨hs, he⟩
    have stored : t ∈ s.teams := he ▸ ((Store.mem_teamsFor h.distinct).mp hmem).1
    have found : t.handle.id.bind s.teamById? = some t :=
      hs.distinct.teamById?_eq_some_iff.mpr ⟨stored, rfl⟩
    exact (Moves.record _).bind (MembershipService.add_moves hs.complete hs.record? found).discard
  · rintro s t - ⟨hs, he⟩
    exact ⟨hs.join _, by rw [Store.join_eq_joined, ← he]⟩

/-- The second loop adds the edges to the teams that the asserted groups reach. -/
theorem joinAll_moves (h : st.Keeps u) (principal : String) (source : GroupSource)
    (asserted : List String) :
    Moves st (asserted.forM (joinGroup principal u.handle source)) ()
      (asserted.foldl (joinTeams u source) st)
      (Moves.collected (joinTeams u source) (joinNotes principal u source) st asserted) := by
  refine .forM (I := fun s => s.Keeps u) ?_ ?_ h
  · rintro s group - h
    exact joinGroup_moves h principal source group
  · rintro s group - h
    exact h.joins _

end Loops

section Run

theorem joinTeams_eq (st : Store) (u : User) (source : GroupSource) (group : String) :
    joinTeams u source st group = { st with
      memberships := Store.joined st.memberships ((st.teamsFor group source).map u.edge) } := by
  rw [← Store.foldl_join, List.foldl_map]
  rfl

theorem foldl_joinTeams (st : Store) (u : User) (source : GroupSource) (asserted : List String) :
    asserted.foldl (joinTeams u source) st =
      ((st.targets source asserted).map u.edge).foldl Store.join st := by
  induction asserted generalizing st with
  | nil => rfl
  | cons group asserted ih =>
    have hj := joinTeams_eq st u source group
    have ht : (joinTeams u source st group).targets source asserted =
        st.targets source asserted := by
      rw [hj]
      rfl
    rw [List.foldl_cons, ih, ht, hj, ← Store.foldl_join, ← List.foldl_append, ← List.map_append]
    rfl

theorem foldl_leave_edges (st : Store) (u : User) (teams : List Team) :
    teams.foldl (fun s t => s.leave (u.edge t)) st =
      { st with memberships := st.memberships.filter (· ∉ teams.map u.edge) } := by
  rw [← Store.foldl_leave, List.foldl_map]

/-- Both loops together leave the synchronized store. -/
theorem loops_eq_synchronized (st : Store) (u : User) (source : GroupSource)
    (asserted : List String) :
    asserted.foldl (joinTeams u source)
      ((st.staleTeams u source asserted).foldl (fun s t => s.leave (u.edge t)) st) =
      st.synchronized u source asserted := by
  rw [foldl_joinTeams, foldl_leave_edges, Store.foldl_join]
  rfl

/-- The events of a run. -/
def runNotes (principal : String) (u : User) (source : GroupSource) (st : Store)
    (asserted : List String) : List Event :=
  let stale := st.staleTeams u source asserted
  let leave := fun (s : Store) t => s.leave (u.edge t)
  (st.teamsOf (.user u.kind) u.id).flatMap (staleNotes st principal source asserted) ++
    (Moves.collected leave (leaveNotes principal u source) st stale ++
      Moves.collected (joinTeams u source) (joinNotes principal u source) (stale.foldl leave st)
        asserted)

theorem synchronized_keeps (h : st.Keeps u) (source : GroupSource) (asserted : List String) :
    (st.synchronized u source asserted).Keeps u := by
  rw [← loops_eq_synchronized]
  exact List.foldlRecOn (motive := fun s : Store => s.Keeps u) _ _ (h.leaves _)
    fun _ hs _ _ => hs.joins _

theorem run_moves (h : st.Keeps u) {p : PrincipalHandle}
    (hp : st.record? p = some (.user (st.userRecord u))) (source : GroupSource)
    (asserted : List String) :
    Moves st (run p source asserted)
      (.user ((st.synchronized u source asserted).userRecord u))
      (st.synchronized u source asserted) (runNotes p.identifier u source st asserted) := by
  have stored : ∀ t ∈ st.staleTeams u source asserted, t ∈ st.teams := fun t ht =>
    (Store.mem_teamsOf.mp (List.mem_filter.mp ht).1).1
  have leaves := leaveAll_moves h p.identifier source stored
  have joins := joinAll_moves (h.leaves (st.staleTeams u source asserted)) p.identifier source
    asserted
  rw [loops_eq_synchronized] at joins
  have synced := synchronized_keeps h source asserted
  have again := Moves.reads synced.complete (Principals.reload_reads synced.record?)
  have stale := staleTeams_moves h.complete p.identifier source asserted
    (st.teamsOf (.user u.kind) u.id)
  exact (Moves.reads_bind h.complete (Principals.reload_reads hp)
    (stale.bind (leaves.bind (joins.bind again)))).cast rfl rfl (by simp [runNotes])

/-- Synchronizing a stored user succeeds and leaves the synchronized store. -/
theorem synchronize_moves (h : st.Keeps u) {p : PrincipalHandle}
    (hp : st.record? p = some (.user (st.userRecord u))) (hs : u.kind.source? = some source)
    (groups : List String) :
    Moves st (synchronize p (.groups groups))
      (.user ((st.synchronized u source (firsts groups)).userRecord u))
      (st.synchronized u source (firsts groups))
      (.syncStarted p.identifier source (firsts groups) ::
        runNotes p.identifier u source st (firsts groups) ++
          [.syncCompleted p.identifier source
            (((st.synchronized u source (firsts groups)).teamsOf (.user u.kind) u.id).map
              (·.name))]) := by
  have known : Moves st (sourceOf p.kind) source st [] := by
    rw [Store.kind_of_record? hp]
    change Moves st (sourceOf (.user u.kind)) source st []
    simp only [sourceOf, PrincipalKind.userKind?, Option.bind_some, hs]
    exact .pure source
  have last (e : Event) {r : PrincipalRecord} {st : Store} :
      Moves st (do record e; return r) r st [e] := (Moves.record e).bind (.pure r)
  refine (Moves.bind (.pure ()) (.bind known (.bind (.pure groups) (.bind (.record _)
    (.bind (run_moves h hp _ _).guarded (last _)))))).cast rfl rfl ?_
  simp [PrincipalRecord.teams, Store.userRecord]

end Run

section Result

theorem mem_firsts {names : List String} {name : String} :
    name ∈ firsts names ↔ name ∈ names := by
  have grown : ∀ seen : List String, name ∈ names.foldl
      (fun seen name => if seen.contains name then seen else seen ++ [name]) seen ↔
      name ∈ seen ∨ name ∈ names := by
    induction names with
    | nil => simp
    | cons first names ih =>
      intro seen
      rw [List.foldl_cons, ih]
      by_cases hf : first ∈ seen
      · rw [if_pos (by simpa using hf), List.mem_cons]
        constructor
        · rintro (h | h)
          · exact .inl h
          · exact .inr (.inr h)
        · rintro (h | rfl | h)
          · exact .inl h
          · exact .inl hf
          · exact .inr h
      · rw [if_neg (by simpa using hf), List.mem_append, List.mem_singleton, List.mem_cons,
          or_assoc]
  exact (grown []).trans (by simp)

theorem edge_inj (hd : st.Distinct) {t' : Team} (ht : t ∈ st.teams) (ht' : t' ∈ st.teams)
    (he : u.edge t = u.edge t') : t = t' :=
  List.inj_on_of_nodup_map hd.teamIds ht ht' (congrArg Membership.team he)

theorem mem_targets (hd : st.Distinct) :
    t ∈ st.targets source asserted ↔ t ∈ st.teams ∧ ∃ g ∈ asserted, st.Mapped g t.id source := by
  simp only [Store.targets, List.mem_flatMap, Store.mem_teamsFor hd]
  constructor
  · rintro ⟨g, hg, ht, hm⟩
    exact ⟨ht, g, hg, hm⟩
  · rintro ⟨ht, g, hg, hm⟩
    exact ⟨g, hg, ht, hm⟩

/-- A team that does not have to go is reached from an asserted group. -/
theorem mapped_of_not_isStale (h : st.isStale source asserted t = false) :
    ∃ g ∈ asserted, st.Mapped g t.id source := by
  simp only [Store.isStale, Bool.or_eq_false_iff, List.any_eq_false, Bool.not_eq_true,
    Bool.not_eq_false', List.contains_iff_mem] at h
  obtain ⟨he, ha⟩ := h
  obtain ⟨g, hg⟩ : ∃ g, g ∈ st.groupsFor t.id source := by
    cases hl : st.groupsFor t.id source with
    | nil => simp [hl] at he
    | cons g groups => exact ⟨g, by simp⟩
  exact ⟨g, ha g hg, Store.mem_groupsFor.mp hg⟩

/-- The user ends in a stored team exactly if an asserted group reaches it. -/
theorem edge_mem_synchronized (hd : st.Distinct) (ht : t ∈ st.teams) :
    u.edge t ∈ (st.synchronized u source asserted).memberships ↔
      ∃ g ∈ asserted, st.Mapped g t.id source := by
  have hm : u.edge t ∈ (st.synchronized u source asserted).memberships ↔
      (u.edge t ∈ st.memberships ∧ u.edge t ∉ (st.staleTeams u source asserted).map u.edge) ∨
        u.edge t ∈ (st.targets source asserted).map u.edge := by
    simp only [Store.synchronized, Store.mem_joined, List.mem_filter, decide_eq_true_eq]
  rw [hm]
  constructor
  · rintro (⟨he, hn⟩ | he)
    · by_contra hg
      refine hn (List.mem_map_of_mem (List.mem_filter.mpr ⟨Store.mem_teamsOf.mpr ⟨ht, he⟩, ?_⟩))
      by_contra hs
      exact hg (mapped_of_not_isStale (by simpa using hs))
    · obtain ⟨t', ht', he⟩ := List.mem_map.mp he
      obtain ⟨hmem, hg⟩ := (mem_targets hd).mp ht'
      exact edge_inj hd hmem ht he ▸ hg
  · rintro hg
    exact .inr (List.mem_map_of_mem ((mem_targets hd).mpr ⟨ht, hg⟩))

/-- All memberships but those of the user in stored teams stay in their places. -/
theorem filter_synchronized (hd : st.Distinct) :
    (st.synchronized u source asserted).memberships.filter
        (fun e => decide (∀ t ∈ st.teams, e ≠ u.edge t)) =
      st.memberships.filter fun e => decide (∀ t ∈ st.teams, e ≠ u.edge t) := by
  have hj : ∀ e ∈ (st.targets source asserted).map u.edge,
      decide (∀ t ∈ st.teams, e ≠ u.edge t) = false := by
    intro e he
    obtain ⟨t, ht, rfl⟩ := List.mem_map.mp he
    exact decide_eq_false fun h => h t ((mem_targets hd).mp ht).1 rfl
  rw [Store.synchronized, Store.filter_joined hj, List.filter_filter]
  refine List.filter_congr fun e _ => ?_
  rw [Bool.eq_iff_iff, Bool.and_eq_true, decide_eq_true_eq, decide_eq_true_eq]
  constructor
  · exact fun h => h.1
  · refine fun h => ⟨h, fun he => ?_⟩
    obtain ⟨t, ht, rfl⟩ := List.mem_map.mp he
    exact h t (Store.mem_teamsOf.mp (List.mem_filter.mp ht).1).1 rfl

end Result

/-- When nothing fails, a synchronized user ends in exactly the stored teams that an asserted group
reaches, is answered with these by name, and no other row changes. -/
theorem synchronize_reaches_mapped {s : Store} (hs : Reachable s) (hc : s.isComplete = true)
    (hu : u ∈ s.users) (hk : u.kind.source? = some source) (groups : List String) :
    ∃ record σ, synchronize u.handle (.groups groups) (Session.start s) = .ok (.user record) σ ∧
      σ.durable = σ.current ∧
      (∀ t ∈ s.teams, u.edge t ∈ σ.durable.memberships ↔
        ∃ g ∈ groups, s.Mapped g t.id source) ∧
      record.user = u ∧
      (∀ t, t ∈ record.teams ↔ t ∈ s.teams ∧ ∃ g ∈ groups, s.Mapped g t.id source) ∧
      (record.teams.Pairwise fun t t' => t.name < t'.name) ∧
      σ.durable = { s with memberships := σ.durable.memberships } ∧
      (σ.durable.memberships.filter fun e => decide (∀ t ∈ s.teams, e ≠ u.edge t)) =
        s.memberships.filter fun e => decide (∀ t ∈ s.teams, e ≠ u.edge t) := by
  have keeps : s.Keeps u := ⟨List.isEmpty_iff.mp hc, hs.distinct, hu⟩
  have reached : ∀ t ∈ s.teams,
      u.edge t ∈ (s.synchronized u source (firsts groups)).memberships ↔
        ∃ g ∈ groups, s.Mapped g t.id source := by
    intro t ht
    refine (edge_mem_synchronized hs.distinct ht).trans ?_
    simp only [mem_firsts]
  refine ⟨_, _, synchronize_moves keeps keeps.record? hk groups {} [], rfl, reached, rfl, ?_, ?_,
    rfl, filter_synchronized hs.distinct⟩
  · intro t
    change t ∈ (s.synchronized u source (firsts groups)).teamsOf (.user u.kind) u.id ↔ _
    rw [Store.mem_teamsOf]
    exact and_congr_right (reached t)
  · exact sortedBy_pairwise_lt (Store.nodup_map_filter _ hs.distinct.teamNames)

/-- A directory user leaves a team that no group reaches and joins the one that an asserted group
reaches. -/
theorem synchronize_reaches_mapped_ann :
    Reachable Sample.store ∧ Sample.store.isComplete = true ∧ Sample.ann ∈ Sample.store.users ∧
      Sample.ann.kind.source? = some .ldap ∧
      ∃ record σ, synchronize Sample.ann.handle (.groups ["cn=admins", "cn=x", "cn=admins"])
          (Session.start Sample.store) = .ok (.user record) σ ∧
        Sample.ann.edge Sample.admins ∈ σ.durable.memberships ∧
        Sample.ann.edge Sample.guests ∉ σ.durable.memberships := by
  have hu : Sample.ann ∈ Sample.store.users := by decide
  have hk : Sample.ann.kind.source? = some .ldap := rfl
  obtain ⟨record, σ, hx, -, hm, -⟩ := synchronize_reaches_mapped Sample.reachable rfl hu hk
    ["cn=admins", "cn=x", "cn=admins"]
  refine ⟨Sample.reachable, rfl, hu, hk, record, σ, hx, ?_, ?_⟩
  · exact (hm _ (by decide)).mpr ⟨"cn=admins", by decide, List.mem_singleton.mpr rfl⟩
  · rw [hm _ (by decide)]
    rintro ⟨g, -, hg⟩
    have he : Sample.guests.id = Sample.admins.id :=
      congrArg LdapMapping.team (List.mem_singleton.mp hg)
    exact absurd he (by decide)

end Synchronization

end TeamAccess
