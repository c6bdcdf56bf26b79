import TeamAccess.Proofs.Commits
import TeamAccess.Proofs.Service.GroupMapping
import TeamAccess.Proofs.Service.Interruption

/-! # Which edges a synchronization changes

The first loop of a run removes the user from the teams that have to go, the second one tries to add
it to every team that an asserted group reaches. An attempt changes something only where the edge is
not there: in the order of the attempts, the first one for each team that the user is not in. So the
edges that come are ordered by the first group that reaches the team, and groups asserted twice make
no difference.
-/

namespace TeamAccess

open TeamAccess.Action

namespace Synchronization

variable {s s' : Store} {u : User} {source : GroupSource} {groups : List String} {t : Team}
  {ts : List Team}

/-- What a change of a membership of a user is recorded as. -/
def report (u : User) (change : EdgeChange) (t : Team) : Event :=
  .membership change u.username (.user u.kind) t.name

/-- What an attempt to add a user to a team is recorded as, by whether the user was added. -/
def reply (u : User) (attempt : Team × Bool) : Event :=
  report u (if attempt.2 then .added else .unchanged) attempt.1

/-- Attempts to add a user to some teams, one after the other, each with its answer. -/
def attempts (u : User) : Store → List Team → List (Team × Bool)
  | _, [] => []
  | s, t :: ts => (t, decide (u.edge t ∉ s.memberships)) :: attempts u (s.join (u.edge t)) ts

/-- The teams that such attempts add a user to. -/
def arrivals (u : User) (s : Store) (ts : List Team) : List Team :=
  ((attempts u s ts).filter (·.2)).map (·.1)

/-- The place of the first group that reaches a team. -/
def place (s : Store) (source : GroupSource) (groups : List String) (t : Team) : Nat :=
  groups.findIdx (· ∈ s.groupsFor t.id source)

/-- A team is reached from an earlier group, or from the same one and goes before by name. -/
def ReachedBefore (s : Store) (source : GroupSource) (groups : List String) (t t' : Team) : Prop :=
  place s source groups t < place s source groups t' ∨
    place s source groups t = place s source groups t' ∧ t.name < t'.name

section Attempts

theorem attempts_append (u : User) (s : Store) (ts ts' : List Team) :
    attempts u s (ts ++ ts') =
      attempts u s ts ++ attempts u (ts.foldl (fun s t => s.join (u.edge t)) s) ts' := by
  induction ts generalizing s with
  | nil => rfl
  | cons t ts ih => exact congrArg _ (ih _)

theorem map_fst_attempts (u : User) (s : Store) (ts : List Team) :
    (attempts u s ts).map (·.1) = ts := by
  induction ts generalizing s with
  | nil => rfl
  | cons t ts ih => exact congrArg _ (ih _)

theorem arrivals_append (u : User) (s : Store) (ts ts' : List Team) :
    arrivals u s (ts ++ ts') =
      arrivals u s ts ++ arrivals u (ts.foldl (fun s t => s.join (u.edge t)) s) ts' := by
  simp [arrivals, attempts_append]

theorem arrivals_sublist (u : User) (s : Store) (ts : List Team) :
    (arrivals u s ts).Sublist ts := by
  have kept := (List.filter_sublist (p := (·.2)) (l := attempts u s ts)).map (·.1)
  rwa [map_fst_attempts] at kept

theorem arrivals_cons_of_mem (h : u.edge t ∈ s.memberships) :
    arrivals u s (t :: ts) = arrivals u s ts := by
  simp [arrivals, attempts, h, Store.join_of_mem]

theorem arrivals_cons_of_not_mem (h : u.edge t ∉ s.memberships) :
    arrivals u s (t :: ts) = t :: arrivals u (s.join (u.edge t)) ts := by
  simp [arrivals, attempts, h]

/-- Attempts to add a user to teams that it is in change nothing. -/
theorem arrivals_of_mem (h : ∀ t ∈ ts, u.edge t ∈ s.memberships) :
    arrivals u s ts = [] ∧ ts.foldl (fun s t => s.join (u.edge t)) s = s := by
  induction ts with
  | nil => exact ⟨rfl, rfl⟩
  | cons t ts ih =>
    have here := h t (by simp)
    obtain ⟨none, same⟩ := ih fun t ht => h t (by simp [ht])
    exact ⟨(arrivals_cons_of_mem here).trans none,
      by rw [List.foldl_cons, Store.join_of_mem here, same]⟩

/-- The attempts that change nothing can be left out. -/
theorem foldl_arrivals (u : User) (s : Store) (ts : List Team) :
    (arrivals u s ts).foldl (fun s t => s.join (u.edge t)) s =
      ts.foldl (fun s t => s.join (u.edge t)) s := by
  induction ts generalizing s with
  | nil => rfl
  | cons t ts ih =>
    by_cases here : u.edge t ∈ s.memberships
    · rw [arrivals_cons_of_mem here, ih, List.foldl_cons, Store.join_of_mem here]
    · rw [arrivals_cons_of_not_mem here, List.foldl_cons, List.foldl_cons, ih]

theorem mem_foldl_join {e : Membership} :
    e ∈ (ts.foldl (fun s t => s.join (u.edge t)) s).memberships ↔
      e ∈ s.memberships ∨ e ∈ ts.map u.edge := by
  have joined := Store.foldl_join s (ts.map u.edge)
  rw [List.foldl_map] at joined
  rw [joined]
  exact Store.mem_joined

theorem edge_not_mem_of_mem_arrivals (h : t ∈ arrivals u s ts) : u.edge t ∉ s.memberships := by
  induction ts generalizing s with
  | nil => simp [arrivals, attempts] at h
  | cons first ts ih =>
    by_cases here : u.edge first ∈ s.memberships
    · exact ih (arrivals_cons_of_mem here ▸ h)
    · rw [arrivals_cons_of_not_mem here, List.mem_cons] at h
      rcases h with rfl | h
      · exact here
      · intro before
        refine ih h ?_
        rw [Store.join_eq_joined]
        exact Store.mem_joined.mpr (.inl before)

/-- A user is added to every tried team that it is not in. -/
theorem mem_arrivals (inj : ∀ t ∈ ts, ∀ t' ∈ ts, u.edge t = u.edge t' → t = t') :
    t ∈ arrivals u s ts ↔ t ∈ ts ∧ u.edge t ∉ s.memberships := by
  refine ⟨fun h => ⟨(arrivals_sublist u s ts).subset h, edge_not_mem_of_mem_arrivals h⟩, ?_⟩
  rintro ⟨ht, absent⟩
  have come : u.edge t ∈ s.memberships ∨ u.edge t ∈ (arrivals u s ts).map u.edge := by
    rw [← mem_foldl_join, foldl_arrivals, mem_foldl_join]
    exact .inr (List.mem_map_of_mem ht)
  obtain ⟨t', ht', he⟩ := List.mem_map.mp (come.resolve_left absent)
  exact inj t' ((arrivals_sublist u s ts).subset ht') t ht he ▸ ht'

end Attempts

section Order

theorem targets_cons (s : Store) (source : GroupSource) (group : String) (groups : List String) :
    s.targets source (group :: groups) = s.teamsFor group source ++ s.targets source groups := rfl

theorem targets_append (s : Store) (source : GroupSource) (groups more : List String) :
    s.targets source (groups ++ more) = s.targets source groups ++ s.targets source more :=
  List.flatMap_append

/-- Groups asserted twice make no difference. -/
theorem arrivals_firsts (u : User) (st s : Store) (source : GroupSource) (groups : List String) :
    arrivals u st (s.targets source (firsts groups)) = arrivals u st (s.targets source groups) := by
  have grown : ∀ seen : List String,
      arrivals u st (s.targets source (groups.foldl
        (fun seen name => if seen.contains name then seen else seen ++ [name]) seen)) =
      arrivals u st (s.targets source (seen ++ groups)) := by
    induction groups with
    | nil => simp
    | cons group groups ih =>
      intro seen
      rw [List.foldl_cons, ih]
      by_cases hg : group ∈ seen
      · -- every team of the group has been tried before
        have tried : ∀ t ∈ s.teamsFor group source, u.edge t ∈ ((s.targets source seen).foldl
            (fun s t => s.join (u.edge t)) st).memberships := fun t ht =>
          mem_foldl_join.mpr (.inr (List.mem_map_of_mem (List.mem_flatMap.mpr ⟨group, hg, ht⟩)))
        obtain ⟨none, same⟩ := arrivals_of_mem tried
        rw [if_pos (by simpa using hg), targets_append, targets_append, targets_cons,
          arrivals_append, arrivals_append, arrivals_append, none, same, List.nil_append]
      · rw [if_neg (by simpa using hg), List.append_assoc, List.singleton_append]
  simpa [firsts] using grown []

theorem place_cons_of_mem (hd : s.Distinct) {group : String} (h : t ∈ s.teamsFor group source) :
    place s source (group :: groups) t = 0 := by
  have reached := Store.mem_groupsFor.mpr ((Store.mem_teamsFor hd).mp h).2
  simp [place, List.findIdx_cons, reached]

theorem place_cons_of_not_mem (hd : s.Distinct) {group : String} (ht : t ∈ s.teams)
    (h : t ∉ s.teamsFor group source) :
    place s source (group :: groups) t = place s source groups t + 1 := by
  have missed : group ∉ s.groupsFor t.id source := fun hg =>
    h ((Store.mem_teamsFor hd).mpr ⟨ht, Store.mem_groupsFor.mp hg⟩)
  simp [place, List.findIdx_cons, missed]

/-- A user is added to teams in the order of the first groups that reach them. -/
theorem arrivals_ordered (hd : s.Distinct) (u : User) (st : Store) (source : GroupSource)
    (groups : List String) :
    (arrivals u st (s.targets source groups)).Pairwise (ReachedBefore s source groups) := by
  induction groups generalizing st with
  | nil => exact .nil
  | cons group groups ih =>
    -- what a later group adds, this group does not reach
    have later : ∀ t ∈ arrivals u ((s.teamsFor group source).foldl
        (fun s t => s.join (u.edge t)) st) (s.targets source groups),
        place s source (group :: groups) t = place s source groups t + 1 := by
      intro t ht
      have stored := ((mem_targets hd).mp ((arrivals_sublist _ _ _).subset ht)).1
      refine place_cons_of_not_mem hd stored fun hg => edge_not_mem_of_mem_arrivals ht ?_
      exact mem_foldl_join.mpr (.inr (List.mem_map_of_mem hg))
    have here : ∀ t ∈ arrivals u st (s.teamsFor group source),
        place s source (group :: groups) t = 0 := fun t ht =>
      place_cons_of_mem hd ((arrivals_sublist _ _ _).subset ht)
    rw [targets_cons, arrivals_append]
    refine List.pairwise_append.mpr ⟨?_, (ih _).imp_of_mem ?_, ?_⟩
    · refine ((Store.teamsFor_pairwise hd group source).sublist (arrivals_sublist _ _ _)).imp_of_mem
        fun ht ht' hn => .inr ⟨?_, hn⟩
      rw [here _ ht, here _ ht']
    · intro t t' ht ht' before
      rw [ReachedBefore, later t ht, later t' ht']
      exact before.imp Nat.succ_lt_succ (And.imp_left (congrArg Nat.succ))
    · intro t ht t' ht'
      refine .inl ?_
      rw [here t ht, later t' ht']
      exact Nat.succ_pos _

end Order

section Records

theorem filter_staleNotes (s : Store) (principal : String) (source : GroupSource)
    (asserted : List String) (t : Team) :
    (staleNotes s principal source asserted t).filter Event.isMembership = [] := by
  unfold staleNotes
  dsimp only
  split <;> simp [Event.isMembership, List.filter_map]

theorem filter_unresolved (s : Store) (group : String) (source : GroupSource) :
    (GroupMapping.unresolved s group source).filter Event.isMembership = [] := by
  cases source <;> simp only [GroupMapping.unresolved] <;> split <;> rfl

/-- Leaving teams that a user is in, each once, is recorded as that many removals. -/
theorem filter_leaveNotes (principal : String) (source : GroupSource)
    (present : ∀ t ∈ ts, u.edge t ∈ s.memberships) (once : ts.Pairwise (u.edge · ≠ u.edge ·)) :
    (Moves.collected (fun s t => s.leave (u.edge t)) (leaveNotes principal u source) s ts).filter
      Event.isMembership = ts.map (report u .removed) := by
  induction once generalizing s with
  | nil => rfl
  | @cons t ts apart once ih =>
    have rest : ∀ t' ∈ ts, u.edge t' ∈ (s.leave (u.edge t)).memberships := fun t' ht' =>
      List.mem_filter.mpr ⟨present t' (by simp [ht']), by simpa using (apart t' ht').symm⟩
    rw [Moves.collected, List.filter_append, ih rest, leaveNotes, if_pos (present t (by simp))]
    rfl

theorem filter_addNotes (u : User) (principal : String) (source : GroupSource) (group : String)
    (s : Store) (ts : List Team) :
    (Moves.collected (fun s t => s.join (u.edge t)) (addNotes principal u source group) s
      ts).filter Event.isMembership = (attempts u s ts).map (reply u) := by
  induction ts generalizing s with
  | nil => rfl
  | cons t ts ih =>
    have answer : (addNotes principal u source group s t).filter Event.isMembership =
        [reply u (t, decide (u.edge t ∉ s.memberships))] := by
      by_cases here : u.edge t ∈ s.memberships <;>
        simp [addNotes, reply, report, here, List.filter_cons, Event.isMembership]
    rw [Moves.collected, List.filter_append, ih, answer]
    rfl

theorem targets_joinTeams (s : Store) (u : User) (source : GroupSource) (group : String)
    (groups : List String) :
    (joinTeams u source s group).targets source groups = s.targets source groups := by
  rw [joinTeams_eq]
  rfl

/-- The second loop records every attempt with its answer. -/
theorem filter_joinNotes (u : User) (principal : String) (source : GroupSource) (s : Store)
    (groups : List String) :
    (Moves.collected (joinTeams u source) (joinNotes principal u source) s groups).filter
      Event.isMembership = (attempts u s (s.targets source groups)).map (reply u) := by
  induction groups generalizing s with
  | nil => rfl
  | cons group groups ih =>
    rw [Moves.collected, List.filter_append, ih, targets_joinTeams, joinNotes, List.filter_append,
      filter_unresolved, List.nil_append, filter_addNotes, targets_cons, attempts_append,
      List.map_append]
    rfl

end Records

/-- A run for a user leads from one store to another and records some events; the user is removed
from the teams that are gone and added to those that came. -/
structure Changes (s : Store) (u : User) (source : GroupSource) (groups : List String) (s' : Store)
    (notes : List Event) (gone came : List Team) : Prop where
  mem_gone : ∀ t, t ∈ gone ↔ t ∈ s.teams ∧ u.edge t ∈ s.memberships ∧
    ((∀ g, ¬ s.Mapped g t.id source) ∨ ∃ g, s.Mapped g t.id source ∧ g ∉ groups)
  gone_ordered : gone.Pairwise (·.name < ·.name)
  mem_came : ∀ t, t ∈ came ↔ t ∈ s.teams ∧ (∃ g ∈ groups, s.Mapped g t.id source) ∧
    ¬ (u.edge t ∈ s.memberships ∧ t ∉ gone)
  came_ordered : came.Pairwise (ReachedBefore s source groups)
  /-- All removals are recorded before the attempts to add the user, which are those for all teams
  of the asserted groups; an attempt for a team that has not come changes nothing. -/
  recorded : ∃ tried : List (Team × Bool),
    tried.map (·.1) = s.targets source (firsts groups) ∧
    (tried.filter (·.2)).map (·.1) = came ∧
    notes.filter Event.isMembership = gone.map (report u .removed) ++ tried.map (reply u)
  rows : s' = came.foldl (fun s t => s.join (u.edge t))
    (gone.foldl (fun s t => s.leave (u.edge t)) s)

section Run

theorem mem_staleTeams : t ∈ s.staleTeams u source (firsts groups) ↔
    t ∈ s.teams ∧ u.edge t ∈ s.memberships ∧
      ((∀ g, ¬ s.Mapped g t.id source) ∨ ∃ g, s.Mapped g t.id source ∧ g ∉ groups) := by
  have stale : s.isStale source (firsts groups) t = true ↔
      (∀ g, ¬ s.Mapped g t.id source) ∨ ∃ g, s.Mapped g t.id source ∧ g ∉ groups := by
    rw [← Bool.not_eq_false, isStale_eq_false_iff]
    simp only [mem_firsts, not_and_or, not_exists, not_forall, exists_prop]
  rw [Store.staleTeams, List.mem_filter, Store.mem_teamsOf, stale, and_assoc]
  rfl

theorem staleTeams_ordered (hd : s.Distinct) (u : User) (source : GroupSource)
    (asserted : List String) :
    (s.staleTeams u source asserted).Pairwise (·.name < ·.name) :=
  (sortedBy_pairwise_lt (Store.nodup_map_filter _ hd.teamNames)).sublist List.filter_sublist

/-- What is left of the edges of a user when it has left the teams that have to go. -/
theorem edge_mem_leaves (hd : s.Distinct) (ht : t ∈ s.teams) :
    u.edge t ∈ ((s.staleTeams u source (firsts groups)).foldl
      (fun s t => s.leave (u.edge t)) s).memberships ↔
        u.edge t ∈ s.memberships ∧ t ∉ s.staleTeams u source (firsts groups) := by
  have named : u.edge t ∈ (s.staleTeams u source (firsts groups)).map u.edge ↔
      t ∈ s.staleTeams u source (firsts groups) := by
    refine ⟨fun hm => ?_, List.mem_map_of_mem⟩
    obtain ⟨t', ht', he⟩ := List.mem_map.mp hm
    exact edge_inj hd (mem_staleTeams.mp ht').1 ht he ▸ ht'
  rw [foldl_leave_edges, List.mem_filter, decide_eq_true_eq, named]

theorem targets_leaves (s : Store) (u : User) (source : GroupSource) (groups : List String)
    (ts : List Team) :
    (ts.foldl (fun s t => s.leave (u.edge t)) s).targets source groups =
      s.targets source groups := by
  rw [foldl_leave_edges]
  rfl

/-- A run records its removals and then its attempts. -/
theorem filter_runNotes (hd : s.Distinct) (principal : String) :
    (runNotes principal u source s (firsts groups)).filter Event.isMembership =
      (s.staleTeams u source (firsts groups)).map (report u .removed) ++
        (attempts u ((s.staleTeams u source (firsts groups)).foldl
          (fun s t => s.leave (u.edge t)) s) (s.targets source (firsts groups))).map (reply u) := by
  have decided : ((s.teamsOf (.user u.kind) u.id).flatMap
      (staleNotes s principal source (firsts groups))).filter Event.isMembership = [] := by
    simp [List.filter_flatMap, filter_staleNotes]
  have once : (s.staleTeams u source (firsts groups)).Pairwise (u.edge · ≠ u.edge ·) := by
    refine (staleTeams_ordered hd u source _).imp_of_mem fun ht ht' hn he => ?_
    rw [edge_inj hd (mem_staleTeams.mp ht).1 (mem_staleTeams.mp ht').1 he] at hn
    exact String.lt_irrefl _ hn
  have leaving := filter_leaveNotes principal source
    (fun t ht => (mem_staleTeams.mp ht).2.1) once
  have joining := filter_joinNotes u principal source
    ((s.staleTeams u source (firsts groups)).foldl (fun s t => s.leave (u.edge t)) s)
    (firsts groups)
  rw [targets_leaves] at joining
  rw [runNotes, List.filter_append, List.filter_append, decided, leaving, joining, List.nil_append]

/-- A run changes the edges as described. -/
theorem synchronized_changes (h : s.Keeps u) (hk : u.kind.source? = some source)
    (groups : List String) :
    ∃ record notes gone came,
      Moves s (synchronize u.handle (.groups groups)) record
        (s.synchronized u source (firsts groups)) notes ∧
      Changes s u source groups (s.synchronized u source (firsts groups)) notes gone came := by
  have hd := h.distinct
  let gone := s.staleTeams u source (firsts groups)
  let left := gone.foldl (fun s t => s.leave (u.edge t)) s
  let targets := s.targets source (firsts groups)
  refine ⟨_, _, gone, arrivals u left targets, synchronize_moves h h.record? hk groups,
    fun t => mem_staleTeams, staleTeams_ordered hd u source _, fun t => ?_, ?_,
    ⟨attempts u left targets, map_fst_attempts u left targets, rfl, ?_⟩, ?_⟩
  · have inj : ∀ t ∈ targets, ∀ t' ∈ targets, u.edge t = u.edge t' → t = t' := fun t ht t' ht' =>
      edge_inj hd ((mem_targets hd).mp ht).1 ((mem_targets hd).mp ht').1
    rw [mem_arrivals inj, mem_targets hd, and_assoc]
    simp only [mem_firsts]
    exact and_congr_right fun ht => and_congr_right fun _ => not_congr (edge_mem_leaves hd ht)
  · rw [arrivals_firsts]
    exact arrivals_ordered hd u left source groups
  · have framed {first last : Event} {es : List Event} (hf : first.isMembership = false)
        (hl : last.isMembership = false) :
        (first :: es ++ [last]).filter Event.isMembership = es.filter Event.isMembership := by
      simp [hf, hl]
    rw [framed rfl rfl, filter_runNotes hd]
  · have joins := foldl_joinTeams left u source (firsts groups)
    rw [targets_leaves, List.foldl_map] at joins
    rw [foldl_arrivals, ← joins]
    exact (loops_eq_synchronized s u source (firsts groups)).symm

namespace Changes

variable {notes : List Event} {gone came : List Team}

theorem gone_nodup (h : Changes s u source groups s' notes gone came) : gone.Nodup := by
  refine h.gone_ordered.imp fun hn he => ?_
  rw [he] at hn
  exact String.lt_irrefl _ hn

theorem came_nodup (h : Changes s u source groups s' notes gone came) : came.Nodup := by
  refine h.came_ordered.imp fun hr he => ?_
  rw [he] at hr
  rcases hr with earlier | ⟨-, hn⟩
  · exact Nat.lt_irrefl _ earlier
  · exact String.lt_irrefl _ hn

/-- After a run, the user is in the teams that an asserted group reaches; another run removes it
from those that another group reaches as well, and adds it to these again. -/
theorem again (hd : s.Distinct)
    (h : Changes (s.synchronized u source (firsts groups)) u source groups s' notes gone came) :
    (∀ t, t ∈ gone ↔ t ∈ s.teams ∧ (∃ g ∈ groups, s.Mapped g t.id source) ∧
      ∃ g, s.Mapped g t.id source ∧ g ∉ groups) ∧ came.Perm gone := by
  have mapped {g : String} {team : Uuid} :
      (s.synchronized u source (firsts groups)).Mapped g team source ↔ s.Mapped g team source := by
    cases source <;> rfl
  have inside {t : Team} (ht : t ∈ s.teams) :
      u.edge t ∈ (s.synchronized u source (firsts groups)).memberships ↔
        ∃ g ∈ groups, s.Mapped g t.id source := by
    rw [edge_mem_synchronized hd ht]
    simp only [mem_firsts]
  have leaves : ∀ t, t ∈ gone ↔ t ∈ s.teams ∧ (∃ g ∈ groups, s.Mapped g t.id source) ∧
      ∃ g, s.Mapped g t.id source ∧ g ∉ groups := by
    intro t
    rw [h.mem_gone]
    simp only [mapped]
    refine and_congr_right fun (ht : t ∈ s.teams) => ?_
    rw [inside ht]
    exact and_congr_right fun ⟨g, _, hg⟩ => or_iff_right fun none => none g hg
  refine ⟨leaves, (List.perm_ext_iff_of_nodup h.came_nodup h.gone_nodup).mpr fun t => ?_⟩
  rw [h.mem_came, leaves]
  simp only [mapped]
  refine and_congr_right fun (ht : t ∈ s.teams) => ?_
  rw [inside ht]
  refine and_congr_right fun reached => ⟨fun absent => ?_, fun other ⟨_, stays⟩ => ?_⟩
  · by_contra none
    exact absent ⟨reached, fun gone => none gone.2.2⟩
  · exact stays ⟨ht, reached, other⟩

end Changes

end Run

/-- A synchronization in which nothing fails removes the user, by name, from each of its teams that
no group reaches or that a group reaches which is not asserted; then it adds the user to each team
that an asserted group reaches and that it is not in, in the order of the groups. A second run
changes exactly the teams that are reached from an asserted group and from one that is not. -/
theorem synchronize_changes_edges (hs : Reachable s) (hc : s.isComplete = true)
    (hu : u ∈ s.users) (hk : u.kind.source? = some source) (groups : List String) :
    ∃ record s' notes gone came,
      Moves s (synchronize u.handle (.groups groups)) record s' notes ∧
      Changes s u source groups s' notes gone came ∧
      ∃ record' s'' notes' gone' came',
        Moves s' (synchronize u.handle (.groups groups)) record' s'' notes' ∧
        Changes s' u source groups s'' notes' gone' came' ∧
        (∀ t, t ∈ gone' ↔ t ∈ s.teams ∧ (∃ g ∈ groups, s.Mapped g t.id source) ∧
          ∃ g, s.Mapped g t.id source ∧ g ∉ groups) ∧
        came'.Perm gone' := by
  have keeps : s.Keeps u := ⟨List.isEmpty_iff.mp hc, hs.distinct, hu⟩
  obtain ⟨record, notes, gone, came, moves, changes⟩ := synchronized_changes keeps hk groups
  obtain ⟨record', notes', gone', came', moves', changes'⟩ :=
    synchronized_changes (synchronized_keeps keeps source (firsts groups)) hk groups
  exact ⟨_, _, _, gone, came, moves, changes, _, _, _, gone', came', moves', changes',
    changes'.again keeps.distinct⟩

end Synchronization

namespace Sample

/-- The store once a second group reaches the administrators and the user is one of them. -/
def sharedStore : Store :=
  { store with
    ldapMappings := [⟨admins.id, "cn=admins"⟩, ⟨admins.id, "cn=staff"⟩]
    memberships := store.memberships ++ [ann.edge admins] }

theorem sharedStore_reachable : Reachable sharedStore := by
  have h : (Script.runEntry (.transaction [⟨.mapLdap (.stored "admins") "cn=staff", none⟩,
      ⟨.addMember (.stored "LDAP" "ann") (.stored "admins"), none⟩] true) store).2 =
      sharedStore := by decide +kernel
  exact h ▸ .script _ reachable

end Sample

namespace Synchronization

/-- A directory user is in a team that two groups reach and in one that no group reaches. When one
of the two groups is asserted, the user leaves both teams and comes back to the first one; the
second run does this once more. -/
theorem synchronize_changes_edges_ann :
    Reachable Sample.sharedStore ∧ Sample.sharedStore.isComplete = true ∧
      Sample.ann ∈ Sample.sharedStore.users ∧ Sample.ann.kind.source? = some .ldap ∧
      let sync := synchronize Sample.ann.handle (.groups ["cn=x", "cn=admins", "cn=admins"])
      ∃ record s' notes record' s'' notes',
        Moves Sample.sharedStore sync record s' notes ∧
        Changes Sample.sharedStore Sample.ann .ldap ["cn=x", "cn=admins", "cn=admins"] s' notes
          [Sample.admins, Sample.guests] [Sample.admins] ∧
        Moves s' sync record' s'' notes' ∧
        Changes s' Sample.ann .ldap ["cn=x", "cn=admins", "cn=admins"] s'' notes'
          [Sample.admins] [Sample.admins] := by
  have hu : Sample.ann ∈ Sample.sharedStore.users := by decide
  have hk : Sample.ann.kind.source? = some .ldap := rfl
  have staff : Sample.sharedStore.Mapped "cn=staff" Sample.admins.id .ldap := by
    change _ ∈ Sample.sharedStore.ldapMappings
    decide
  have reached : Sample.sharedStore.Mapped "cn=admins" Sample.admins.id .ldap := by
    change _ ∈ Sample.sharedStore.ldapMappings
    decide
  have unmapped (g : String) : ¬ Sample.sharedStore.Mapped g Sample.guests.id .ldap := by
    intro hg
    have he : ∀ m ∈ Sample.sharedStore.ldapMappings, m.team ≠ Sample.guests.id := by decide
    exact he _ hg rfl
  obtain ⟨record, s', notes, gone, came, moves, changes, record', s'', notes', gone', came', moves',
    changes', leaves, perm⟩ := synchronize_changes_edges Sample.sharedStore_reachable rfl hu hk
      ["cn=x", "cn=admins", "cn=admins"]
  obtain rfl : gone = [Sample.admins, Sample.guests] := by
    have both : gone.Perm [Sample.admins, Sample.guests] := by
      refine (List.perm_ext_iff_of_nodup changes.gone_nodup (by decide)).mpr fun t => ?_
      rw [changes.mem_gone]
      refine ⟨fun h => h.1, fun ht => ⟨ht, ?_⟩⟩
      rcases List.mem_pair.mp ht with rfl | rfl
      · exact ⟨by decide, .inr ⟨_, staff, by decide⟩⟩
      · exact ⟨by decide, .inl unmapped⟩
    exact both.eq_of_pairwise (fun _ _ _ _ hn hn' => (String.lt_asymm hn hn').elim)
      changes.gone_ordered (by decide)
  have only {t : Team} {g : String} (ht : t ∈ Sample.sharedStore.teams)
      (hg : Sample.sharedStore.Mapped g t.id .ldap) : t = Sample.admins := by
    rcases List.mem_pair.mp ht with rfl | rfl
    · rfl
    · exact (unmapped g hg).elim
  obtain rfl : came = [Sample.admins] := by
    refine List.perm_singleton.mp ?_
    refine (List.perm_ext_iff_of_nodup changes.came_nodup (by decide)).mpr fun t => ?_
    rw [changes.mem_came, List.mem_singleton]
    constructor
    · rintro ⟨ht, ⟨g, -, hg⟩, -⟩
      exact only ht hg
    · rintro rfl
      exact ⟨by decide, ⟨_, by decide, reached⟩, by decide⟩
  obtain rfl : gone' = [Sample.admins] := by
    refine List.perm_singleton.mp ?_
    refine (List.perm_ext_iff_of_nodup changes'.gone_nodup (by decide)).mpr fun t => ?_
    rw [leaves, List.mem_singleton]
    constructor
    · rintro ⟨ht, -, g, hg, -⟩
      exact only ht hg
    · rintro rfl
      exact ⟨by decide, ⟨_, by decide, reached⟩, _, staff, by decide⟩
  obtain rfl : came' = [Sample.admins] := List.perm_singleton.mp perm
  exact ⟨Sample.sharedStore_reachable, rfl, hu, hk, record, s', notes, record', s'', notes', moves,
    changes, moves', changes'⟩

end Synchronization

end TeamAccess
