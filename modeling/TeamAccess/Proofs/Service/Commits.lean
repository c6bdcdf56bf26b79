import TeamAccess.Proofs.Commits
import TeamAccess.Proofs.Service.Courses

/-! # What the services commit

The services that change memberships commit one change after the other, also those that turn out to
be empty. The rows that they start from determine the states that these changes lead through.
-/

namespace TeamAccess

open TeamAccess.Action

namespace Store

variable {s : Store} {u : User} {source : GroupSource}

theorem mem_teams_of_teamsFor {group : String} {t : Team} (h : t ∈ s.teamsFor group source) :
    t ∈ s.teams := by
  cases source with
  | ldap => exact (List.mem_filter.mp (mem_sortedBy.mp h)).1
  | oidc =>
    cases hg : s.oidcGroup? group with
    | none => simp [teamsFor, hg] at h
    | some g =>
      simp only [teamsFor, hg, Option.elim_some] at h
      exact (List.mem_filter.mp (mem_sortedBy.mp h)).1

/-- Changes of memberships leave the user, the teams and the groups alone. -/
structure Fits (st : Store) (u : User) (s : Store) : Prop where
  found : s.userById? u.kind u.id = some u
  rows : s = { st with memberships := s.memberships }

namespace Fits

variable {st : Store}

theorem leave (h : st.Fits u s) (e : Membership) : st.Fits u (s.leave e) :=
  ⟨h.found, congrArg (fun r : Store => r.leave e) h.rows⟩

theorem join (h : st.Fits u s) (e : Membership) : st.Fits u (s.join e) := by
  rw [join_eq_joined]
  exact ⟨h.found, congrArg (fun r : Store =>
    { r with memberships := joined s.memberships [e] }) h.rows⟩

theorem record? (h : st.Fits u s) : s.record? u.handle = some (.user (s.userRecord u)) := by
  simp [Store.record?, User.handle, recordById?, h.found]

theorem teams (h : st.Fits u s) : s.teams = st.teams := by rw [h.rows]

theorem teamsFor (h : st.Fits u s) (group : String) :
    s.teamsFor group source = st.teamsFor group source := by
  rw [h.rows]
  rfl

end Fits

end Store

section Edges

open Plan

variable {s st : Store} {u : User} {t : Team} {source : GroupSource} {p : PrincipalHandle}
  {r : PrincipalRecord} {team : TeamHandle}

theorem Plan.fetch_does (call : StoreCall) (h : st.record? p = some r) :
    (fetch call p).Does st r st [] := .reads (by rw [h]; rfl)

theorem Plan.fetch_stops (call : StoreCall) (h : st.record? p = none) : (fetch call p).Stops st :=
  ⟨.reads _ _, p.notFound, by simp [fetch, Plan.reads, h]⟩

theorem Plan.target_does (h : team.id.bind st.teamById? = some t) :
    (target team).Does st t st [] := .reads (by rw [h]; rfl)

theorem Plan.target_stops (h : team.id.bind st.teamById? = none) : (target team).Stops st :=
  ⟨.reads _ _, team.notFound, by simp [target, Plan.reads, h]⟩

/-- The rows after a principal has been removed from a team, if it is stored. -/
def Store.without (st : Store) (r : PrincipalRecord) (team : TeamHandle) : Store :=
  (team.id.bind st.teamById?).elim st fun t => st.leave ⟨r.kind, r.id, t.id⟩

theorem Store.without_edge (ht : t ∈ s.teams) :
    s.without (.user (s.userRecord u)) t.handle = s.leave (u.edge t) := by
  obtain ⟨t', hf, hid⟩ := Store.teamById?_of_mem ht
  have found : t.handle.id.bind s.teamById? = some t' := hf
  rw [without, found, Option.elim_some, hid]
  rfl

/-- A principal loses a membership only in a team that it is shown in. -/
theorem Store.without_eq (hr : st.record? p = some r) {id : Uuid} (hid : team.id = some id) :
    st.without r team =
      if r.teams.any (·.id = id) then st.leave ⟨r.kind, r.id, id⟩ else st := by
  have shown := Store.teams_of_record? hr
  unfold without
  rw [hid, Option.bind_some]
  cases hf : st.teamById? id with
  | none =>
    have absent : ¬ r.teams.any (·.id = id) = true := by
      intro hb
      obtain ⟨t, ht, he⟩ := List.any_eq_true.mp hb
      obtain rfl : t.id = id := by simpa using he
      have stored : t ∈ st.teams := (Store.mem_teamsOf.mp (shown ▸ ht)).1
      obtain ⟨t', found, -⟩ := Store.teamById?_of_mem stored
      cases hf.symm.trans found
    rw [Option.elim_none, if_neg absent]
  | some t =>
    have stored : t ∈ st.teams := List.mem_of_find?_eq_some hf
    obtain rfl : t.id = id := by simpa using List.find?_some hf
    rw [Option.elim_some, shown, Store.any_teamsOf stored]
    by_cases he : ⟨r.kind, r.id, t.id⟩ ∈ st.memberships
    · rw [if_pos (by simpa using he)]
    · rw [if_neg (by simpa using he), Store.leave_of_not_mem he]

namespace Principals

theorem removePlan_does (hr : st.record? p = some r) (team : TeamHandle) :
    ∃ b, (removePlan p team).Does st b (st.without r team) [] := by
  cases hid : team.id with
  | none =>
    have same : st.without r team = st := by simp [Store.without, hid]
    refine ⟨false, (Does.access _).bind ((fetch_does .lock hr).bind ?_)⟩
    rw [hid, same]
    exact .pure false
  | some id =>
    rw [Store.without_eq hr hid]
    by_cases hb : r.teams.any (·.id = id) = true
    · refine ⟨true, (Does.access _).bind ((fetch_does .lock hr).bind ?_)⟩
      simp only [hid, hb, Bool.not_true, Bool.false_eq_true, if_true, if_false]
      exact (Does.update _ _).bind (.pure true)
    · refine ⟨false, (Does.access _).bind ((fetch_does .lock hr).bind ?_)⟩
      simp only [hid, hb, Bool.not_false, Bool.false_eq_true, if_true, if_false]
      exact .pure false

theorem addPlan_does (hr : st.record? p = some r) (ht : team.id.bind st.teamById? = some t) :
    ∃ b, (addPlan p team).Does st b (st.join ⟨r.kind, r.id, t.id⟩) [] := by
  have stored := Store.mem_teams_of_bind ht
  have shown : r.teams.any (·.id = t.id) = decide (⟨r.kind, r.id, t.id⟩ ∈ st.memberships) := by
    rw [Store.teams_of_record? hr, Store.any_teamsOf stored]
  by_cases he : ⟨r.kind, r.id, t.id⟩ ∈ st.memberships
  · refine ⟨false, (Does.access _).bind ((fetch_does .lock hr).bind
      ((target_does ht).bind ?_))⟩
    rw [if_pos (by simpa [shown] using he), Store.join_of_mem he]
    exact .pure false
  · refine ⟨true, (Does.access _).bind ((fetch_does .lock hr).bind ((target_does ht).bind ?_))⟩
    rw [if_neg (by simpa [shown] using he)]
    exact (Does.update _ _).bind (.pure true)

end Principals

namespace MembershipService

/-- What adding a member commits. -/
def addStates (st : Store) (p : PrincipalHandle) (team : TeamHandle) : List Store :=
  match st.record? p, team.id.bind st.teamById? with
  | some r, some t => [st.join ⟨r.kind, r.id, t.id⟩]
  | _, _ => []

/-- What removing a member commits. -/
def removeStates (st : Store) (p : PrincipalHandle) (team : TeamHandle) : List Store :=
  match st.record? p with
  | some r => [st.without r team]
  | none => []

theorem removePlan_does (hr : st.record? p = some r) (team : TeamHandle) :
    ∃ b, (removePlan p team).Does st b (st.without r team) [st.without r team] := by
  obtain ⟨b, changed⟩ := Principals.removePlan_does hr team
  exact ⟨b, (Does.access _).bind (changed.bind ((Does.keep rfl).bind (.pure b)))⟩

theorem addPlan_does (hr : st.record? p = some r) (ht : team.id.bind st.teamById? = some t) :
    ∃ b, (addPlan p team).Does st b (st.join ⟨r.kind, r.id, t.id⟩)
      [st.join ⟨r.kind, r.id, t.id⟩] := by
  obtain ⟨b, changed⟩ := Principals.addPlan_does hr ht
  exact ⟨b, (Does.access _).bind (changed.bind ((Does.keep rfl).bind (.pure b)))⟩

theorem addPlan_commits (st : Store) (p : PrincipalHandle) (team : TeamHandle) :
    (addPlan p team).Commits st (addStates st p team) := by
  unfold addStates
  cases hr : st.record? p with
  | none =>
    have stops : (Principals.addPlan p team).Stops st :=
      .right (.access _) rfl (.left (fetch_stops .lock hr))
    exact (Stops.right (.access _) rfl stops.left).commits
  | some r =>
    cases ht : team.id.bind st.teamById? with
    | none =>
      have stops : (Principals.addPlan p team).Stops st :=
        .right (.access _) rfl (.right (.reads _ _) (fetch_does .lock hr).result
          (.left (target_stops ht)))
      exact (Stops.right (.access _) rfl stops.left).commits
    | some t => exact (addPlan_does hr ht).choose_spec.toCommits

theorem removePlan_commits (st : Store) (p : PrincipalHandle) (team : TeamHandle) :
    (removePlan p team).Commits st (removeStates st p team) := by
  unfold removeStates
  cases hr : st.record? p with
  | none =>
    have stops : (Principals.removePlan p team).Stops st :=
      .right (.access _) rfl (.left (fetch_stops .lock hr))
    exact (Stops.right (.access _) rfl stops.left).commits
  | some r => exact (removePlan_does hr team).choose_spec.toCommits

end MembershipService

namespace Synchronization

variable {st : Store} {asserted : List String} {principal : String}

/-- What a run on a stored user commits, one change of a membership after the other. -/
def runStates (st : Store) (u : User) (source : GroupSource) (asserted : List String) :
    List Store :=
  let leave := fun (s : Store) t => s.leave (u.edge t)
  let join := fun (s : Store) t => s.join (u.edge t)
  let stale := st.staleTeams u source asserted
  (stale.scanl leave st).tail ++
    ((st.targets source asserted).scanl join (stale.foldl leave st)).tail

theorem leavePlan_does (hs : st.Fits u s) {teams : List Team} (ht : ∀ t ∈ teams, t ∈ st.teams) :
    (leavePlan principal u.handle source teams).Does s ()
      (teams.foldl (fun s t => s.leave (u.edge t)) s)
      (teams.scanl (fun s t => s.leave (u.edge t)) s).tail := by
  refine .forM (I := st.Fits u) ?_ (fun s t _ hs => hs.leave _) hs
  intro s t hm hs
  obtain ⟨b, removed⟩ := MembershipService.removePlan_does hs.record? t.handle
  rw [Store.without_edge (hs.teams ▸ ht t hm)] at removed
  exact (Does.note rfl).bind (removed.bind (.pure ()))

theorem joinPlan_does (hs : st.Fits u s) (group : String) :
    (joinPlan principal u.handle source group).Does s ()
      ((st.teamsFor group source).foldl (fun s t => s.join (u.edge t)) s)
      ((st.teamsFor group source).scanl (fun s t => s.join (u.edge t)) s).tail := by
  have reached : (GroupMapping.reachPlan source group).Does s (s.teamsFor group source) s [] := by
    refine .passive (Move.passive_reading ?_) rfl
    cases source <;> simp only [GroupMapping.unresolved] <;> split <;> simp [Event.isMembership]
  refine reached.bind ?_
  rw [hs.teamsFor]
  refine .forM (I := st.Fits u) ?_ (fun s t _ hs => hs.join _) hs
  intro s t hm hs
  obtain ⟨t', hf, hid⟩ := Store.teamById?_of_mem (hs.teams ▸ Store.mem_teams_of_teamsFor hm)
  have found : t.handle.id.bind s.teamById? = some t' := hf
  obtain ⟨b, added⟩ := MembershipService.addPlan_does hs.record? found
  rw [hid] at added
  exact (Does.note rfl).bind (added.bind (.pure ()))

theorem joinAll_does (hs : st.Fits u s) (asserted : List String) :
    (asserted.forM (joinPlan principal u.handle source)).Does s ()
      ((st.targets source asserted).foldl (fun s t => s.join (u.edge t)) s)
      ((st.targets source asserted).scanl (fun s t => s.join (u.edge t)) s).tail := by
  induction asserted generalizing s with
  | nil => exact .pure ()
  | cons group rest ih =>
    have joined : st.Fits u ((st.teamsFor group source).foldl (fun s t => s.join (u.edge t)) s) :=
      List.foldlRecOn (motive := st.Fits u) _ _ hs fun _ hs _ _ => hs.join _
    have whole : st.targets source (group :: rest) =
        st.teamsFor group source ++ st.targets source rest := List.flatMap_cons
    rw [whole, List.foldl_append, List.scanl_append,
      List.tail_append_of_ne_nil (by cases st.teamsFor group source <;> simp)]
    exact (joinPlan_does hs group).bind (ih joined)

/-- A run on a stored user leads through the states of its changes. -/
theorem runPlan_does {p : PrincipalHandle} (hp : st.record? p = some (.user (st.userRecord u)))
    (hs : st.Fits u st) (source : GroupSource) (asserted : List String) :
    ∃ r st', (runPlan p source asserted).Does st r st' (runStates st u source asserted) := by
  have found : (stalePlan p.identifier source asserted (st.teamsOf (.user u.kind) u.id)).Does st
      (st.staleTeams u source asserted) st [] := by
    refine .passive (fun m hm => ?_) rfl
    obtain ⟨t, -, hm⟩ := List.mem_flatMap.mp hm
    refine Move.passive_reading (fun e he => ?_) m hm
    unfold staleNotes at he
    dsimp only at he
    split at he
    · rw [List.mem_singleton.mp he]
      rfl
    · obtain ⟨group, -, rfl⟩ := List.mem_map.mp he
      rfl
  have stored : ∀ t ∈ st.staleTeams u source asserted, t ∈ st.teams := fun t ht =>
    (Store.mem_teamsOf.mp (List.mem_filter.mp ht).1).1
  have left : st.Fits u
      ((st.staleTeams u source asserted).foldl (fun s t => s.leave (u.edge t)) st) :=
    List.foldlRecOn (motive := st.Fits u) _ _ hs fun _ hs _ _ => hs.leave _
  have joined := List.foldlRecOn (motive := st.Fits u) (st.targets source asserted)
    (fun s t => s.join (u.edge t)) left fun _ hs _ _ => hs.join _
  refine ⟨_, _, ((fetch_does .reload hp).bind (found.bind ((leavePlan_does hs stored).bind
    ((joinAll_does left asserted).bind (fetch_does .reload joined.record?))))).cast ?_⟩
  simp [runStates]

/-- What a synchronization commits. -/
def syncStates (st : Store) (p : PrincipalHandle) : Assertion → List Store
  | .groups names =>
    match p.kind.userKind?.bind (·.source?), st.record? p with
    | some source, some (.user r) => runStates st r.user source (firsts names)
    | _, _ => []
  | _ => []

theorem synchronizePlan_groups {p : PrincipalHandle} {names : List String}
    (h : p.kind.userKind?.bind (·.source?) = some source) :
    synchronizePlan p (.groups names) = (do
      .moves [.note (.syncStarted p.identifier source (firsts names))]
      let refreshed ← runPlan p source (firsts names)
      .moves [.note (.syncCompleted p.identifier source (refreshed.teams.map (·.name)))]
      return refreshed) := by
  simp only [synchronizePlan, h]

theorem synchronizePlan_commits (st : Store) (p : PrincipalHandle) (assertion : Assertion) :
    (synchronizePlan p assertion).Commits st (syncStates st p assertion) := by
  cases assertion with
  | loneText => exact (Stops.fail _).commits
  | other value =>
    unfold synchronizePlan syncStates
    cases p.kind.userKind?.bind (·.source?) <;> exact (Stops.fail _).commits
  | groups names =>
    unfold syncStates
    cases hk : p.kind.userKind?.bind (·.source?) with
    | none =>
      simp only [synchronizePlan, hk]
      exact (Stops.fail _).commits
    | some source =>
      rw [synchronizePlan_groups hk]
      cases hr : st.record? p with
      | none =>
        have stops : (runPlan p source (firsts names)).Stops st := .left (fetch_stops .reload hr)
        exact (Stops.right (.note rfl) rfl stops.left).commits
      | some r =>
        obtain ⟨k, hu, hs⟩ := Option.bind_eq_some_iff.mp hk
        obtain ⟨u, -, hf, rfl⟩ := Store.record?_user (PrincipalKind.eq_of_userKind? hu) hr
        obtain rfl := Store.kind_of_userById? hf
        obtain ⟨r, st', ran⟩ := runPlan_does hr ⟨hf, rfl⟩ source (firsts names)
        exact (((Does.note rfl).bind (ran.bind ((Does.note rfl).bind (.pure r)))).cast
          (by simp [Store.userRecord])).toCommits

end Synchronization

end Edges

end TeamAccess
