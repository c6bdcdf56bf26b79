import TeamAccess.Proofs.Service.Synchronization

/-! # Both directions of the group mapping

Teams are found from a group and groups from a team by different queries over different tables. On
every reachable store the two directions are inverse to each other, and each source reads its own
rows only. Since no row occurs twice, joining the tables meets every team once.
-/

namespace TeamAccess

open TeamAccess.Action

namespace Store

variable {s s' : Store} {source : GroupSource} {group : String} {ids : List Uuid}

section Join

/-- The stored teams that some rows refer to, row by row. -/
def referred (s : Store) (ids : List Uuid) : List Team :=
  ids.flatMap fun id => s.teams.filter (·.id = id)

/-- The teams that a group of a source reaches, as joining its mappings with the teams gives them.
-/
def joinedTeams (s : Store) (group : String) : GroupSource → List Team
  | .ldap => s.referred ((s.ldapMappings.filter (·.dn = group)).map (·.team))
  | .oidc => (s.oidcGroup? group).elim [] fun g =>
      s.referred ((s.oidcMappings.filter (·.group = g.id)).map (·.team))

/-- Rows that refer to different teams meet each of these teams once. -/
theorem referred_perm (h : s.Distinct) (hi : ids.Nodup) :
    (s.referred ids).Perm (s.teams.filter (·.id ∈ ids)) := by
  have teams : s.teams.Nodup := .of_map _ h.teamIds
  have once : (s.referred ids).Nodup := by
    refine List.nodup_flatMap.mpr ⟨fun id _ => teams.filter _, hi.imp fun hne t ht ht' => hne ?_⟩
    have hid := of_decide_eq_true (List.mem_filter.mp ht).2
    have hid' := of_decide_eq_true (List.mem_filter.mp ht').2
    exact hid.symm.trans hid'
  refine (List.perm_ext_iff_of_nodup once (teams.filter _)).mpr fun t => ?_
  simp [referred, and_comm]

/-- Sorting the teams that some rows of a table refer to gives those that a row is there for. -/
theorem sortedBy_referred {ρ : Type} [DecidableEq ρ] (h : s.Distinct) {rows : List ρ}
    (hr : rows.Nodup) (team : ρ → Uuid) (row : Uuid → ρ) {p : ρ → Bool}
    (ht : ∀ id, team (row id) = id) (hp : ∀ r, p r = true ↔ r = row (team r)) :
    sortedBy (·.name) (s.referred ((rows.filter p).map team)) =
      sortedBy (·.name) (s.teams.filter (row ·.id ∈ rows)) := by
  have once : ((rows.filter p).map team).Nodup := by
    refine (hr.filter _).map_on fun r hm r' hm' he => ?_
    rw [(hp r).mp (List.mem_filter.mp hm).2, (hp r').mp (List.mem_filter.mp hm').2, he]
  have same : s.teams.filter (·.id ∈ (rows.filter p).map team) =
      s.teams.filter (row ·.id ∈ rows) := by
    refine List.filter_congr fun t _ => ?_
    rw [Bool.eq_iff_iff, decide_eq_true_eq, decide_eq_true_eq]
    constructor
    · intro hm
      obtain ⟨r, hm, he⟩ := List.mem_map.mp hm
      obtain ⟨hm, hr⟩ := List.mem_filter.mp hm
      rw [← he, ← (hp r).mp hr]
      exact hm
    · intro hm
      exact List.mem_map.mpr
        ⟨_, List.mem_filter.mpr ⟨hm, (hp _).mpr (by rw [ht])⟩, ht t.id⟩
  exact sortedBy_eq_of_perm (same ▸ referred_perm h once) (nodup_map_filter _ h.teamNames)

/-- Sorting the join of the tables gives the listing. -/
theorem sortedBy_joinedTeams (h : s.Distinct) (group : String) (source : GroupSource) :
    sortedBy (·.name) (s.joinedTeams group source) = s.teamsFor group source := by
  cases source with
  | ldap =>
    refine sortedBy_referred h h.ldapMappings (·.team) (⟨·, group⟩) (fun _ => rfl) fun m => ?_
    cases m
    simp
  | oidc =>
    simp only [joinedTeams, teamsFor]
    cases s.oidcGroup? group with
    | none => simp [sortedBy]
    | some g =>
      refine sortedBy_referred h h.oidcMappings (·.team) (⟨·, g.id⟩) (fun _ => rfl) fun m => ?_
      cases m
      simp

end Join

theorem teamsFor_pairwise (h : s.Distinct) (group : String) (source : GroupSource) :
    (s.teamsFor group source).Pairwise (·.name < ·.name) := by
  have strict (p : Team → Bool) :
      (sortedBy (·.name) (s.teams.filter p)).Pairwise (·.name < ·.name) :=
    sortedBy_pairwise_lt (nodup_map_filter p h.teamNames)
  cases source with
  | ldap => exact strict _
  | oidc =>
    simp only [teamsFor]
    cases s.oidcGroup? group with
    | none => exact .nil
    | some g => exact strict _

/-- A group of a source is known: a directory group reaches a stored team, a provider group has a
record. -/
def Knows (s : Store) (group : String) : GroupSource → Prop
  | .ldap => ∃ t ∈ s.teams, s.Mapped group t.id .ldap
  | .oidc => ∃ g ∈ s.oidcGroups, g.name = group

/-- Two stores hold the same teams and the same rows of a source. -/
def AgreesOn (s s' : Store) : GroupSource → Prop
  | .ldap => s.teams = s'.teams ∧ s.ldapMappings = s'.ldapMappings
  | .oidc => s.teams = s'.teams ∧ s.oidcGroups = s'.oidcGroups ∧
      s.oidcMappings = s'.oidcMappings

theorem AgreesOn.teamsFor (h : s.AgreesOn s' source) (group : String) :
    s.teamsFor group source = s'.teamsFor group source := by
  cases source with
  | ldap => simp [Store.teamsFor, teamsForDn, h.1, h.2]
  | oidc => simp [Store.teamsFor, oidcGroup?, teamsForOidcGroup, h.1, h.2.1, h.2.2]

theorem AgreesOn.groupsFor (h : s.AgreesOn s' source) (team : Uuid) :
    s.groupsFor team source = s'.groupsFor team source := by
  cases source with
  | ldap => simp [Store.groupsFor, dnsForTeam, h.2]
  | oidc => simp [Store.groupsFor, oidcNamesForTeam, h.2.1, h.2.2]

end Store

namespace Action

variable {α : Type} {st st' : Store} {x : Action α} {a : α} {notes : List Event}

/-- What an action on a store answers, and the events that it records. -/
def outcome (x : Action α) (st : Store) : Except Failure α × List Event :=
  match x (Session.start st) with
  | .ok a s => (.ok a, s.events)
  | .error f s => (.error f, s.events)

theorem Moves.outcome (h : Moves st x a st' notes) : x.outcome st = (.ok a, notes) := by
  unfold Action.outcome
  rw [show Session.start st = Session.on st {} [] from rfl, h]
  rfl

theorem Reads.outcome (h : Reads st x (.ok a)) (hm : st.missing = []) :
    x.outcome st = (.ok a, []) :=
  (Moves.reads hm h).outcome

end Action

namespace GroupMapping

variable {s s' : Store} {source : GroupSource}

theorem groupsForTeam_answers (source : GroupSource) (team : TeamHandle) :
    Reads s (groupsForTeam source team) (.ok ((team.id.map (s.groupsFor · source)).getD [])) := by
  cases source with
  | ldap => exact Groups.dnsForTeam_reads team
  | oidc => exact Groups.namesForTeam_reads team

theorem isMapped_answers (source : GroupSource) (team : TeamHandle) (group : String) :
    Reads s (isMapped source team group)
      (.ok (((team.id.map (s.groupsFor · source)).getD []).contains group)) :=
  (groupsForTeam_answers source team).bind (.pure _)

theorem unresolved_eq_nil_iff (h : s.Distinct) (source : GroupSource) (group : String) :
    unresolved s group source = [] ↔ s.Knows group source := by
  cases source with
  | ldap =>
    have known : s.Knows group .ldap ↔ (s.teamsForDn group).isEmpty = false := by
      refine Iff.trans (exists_congr fun t => ?_) List.isEmpty_eq_false_iff_exists_mem.symm
      exact (@Store.mem_teamsFor s .ldap group t h).symm
    rw [known]
    simp [unresolved]
  | oidc => simp [unresolved, Store.oidcGroup?, Store.Knows]

theorem unresolved_eq_singleton_iff (h : s.Distinct) (source : GroupSource) (group : String) :
    unresolved s group source = [.unresolvedGroup source group] ↔ ¬ s.Knows group source := by
  rw [← unresolved_eq_nil_iff h]
  cases source with
  | ldap => by_cases hg : (s.teamsForDn group).isEmpty <;> simp [unresolved, hg]
  | oidc => by_cases hg : (s.oidcGroup? group).isNone <;> simp [unresolved, hg]

theorem unresolved_congr (h : s.AgreesOn s' source) (group : String) :
    unresolved s group source = unresolved s' group source := by
  cases source with
  | ldap => rw [unresolved, unresolved, ← Store.teamsFor, ← Store.teamsFor, h.teamsFor]
  | oidc => rw [unresolved, unresolved, Store.oidcGroup?, Store.oidcGroup?, h.2.1]

/-- On every reachable store with all its tables, a stored team is among the teams of a group
exactly when the group is among those of the team. The listing is the join of the tables, each team
once and in order; an event is recorded exactly for groups that are not known; and rows of the other
source do not matter. -/
theorem directions_agree (hs : Reachable s) (hc : s.isComplete = true) (source : GroupSource)
    (group : String) :
    ∃ teams events,
      (teamsForGroup source group).outcome s = (.ok teams, events) ∧
      teams = sortedBy (·.name) (s.joinedTeams group source) ∧
      (∀ t ∈ teams, t ∈ s.teams) ∧
      teams.Pairwise (·.name < ·.name) ∧
      (∀ t ∈ s.teams, ∀ team : TeamHandle, team.id = some t.id → ∃ groups mapped,
        (groupsForTeam source team).outcome s = (.ok groups, []) ∧
        (isMapped source team group).outcome s = (.ok mapped, []) ∧
        (t ∈ teams ↔ group ∈ groups) ∧ (group ∈ groups ↔ mapped = true)) ∧
      (events = [] ↔ s.Knows group source) ∧
      (events = [.unresolvedGroup source group] ↔ ¬ s.Knows group source) ∧
      ∀ s' : Store, s'.isComplete = true → s'.AgreesOn s source →
        (teamsForGroup source group).outcome s' = (teamsForGroup source group).outcome s ∧
        ∀ team : TeamHandle,
          (groupsForTeam source team).outcome s' = (groupsForTeam source team).outcome s ∧
          (isMapped source team group).outcome s' = (isMapped source team group).outcome s := by
  have hd := hs.distinct
  replace hc : s.missing = [] := List.isEmpty_iff.mp hc
  have listed {st : Store} (hm : st.missing = []) : (teamsForGroup source group).outcome st =
      (.ok (st.teamsFor group source), unresolved st group source) :=
    (teamsForGroup_moves hm source group).outcome
  have groups {st : Store} (hm : st.missing = []) (team : TeamHandle) :
      (groupsForTeam source team).outcome st =
        (.ok ((team.id.map (st.groupsFor · source)).getD []), []) :=
    (groupsForTeam_answers source team).outcome hm
  have mapped {st : Store} (hm : st.missing = []) (team : TeamHandle) :
      (isMapped source team group).outcome st =
        (.ok (((team.id.map (st.groupsFor · source)).getD []).contains group), []) :=
    (isMapped_answers source team group).outcome hm
  refine ⟨_, _, listed hc, (Store.sortedBy_joinedTeams hd group source).symm,
    fun t ht => ((Store.mem_teamsFor hd).mp ht).1, ?_, ?_, unresolved_eq_nil_iff hd source group,
    unresolved_eq_singleton_iff hd source group, ?_⟩
  · exact Store.teamsFor_pairwise hd group source
  · intro t ht team hid
    refine ⟨_, _, groups hc team, mapped hc team, ?_, ?_⟩
    · rw [hid, Store.mem_teamsFor hd]
      simp [Store.mem_groupsFor, ht]
    · rw [List.contains_iff_mem]
  · intro s' hc' ha
    replace hc' : s'.missing = [] := List.isEmpty_iff.mp hc'
    refine ⟨?_, fun team => ⟨?_, ?_⟩⟩
    · rw [listed hc, listed hc', ha.teamsFor, unresolved_congr ha]
    · rw [groups hc, groups hc']
      simp only [ha.groupsFor]
    · rw [mapped hc, mapped hc']
      simp only [ha.groupsFor]

/-- A directory group reaches the administrators, whatever becomes of the provider's records. -/
theorem directions_agree_admins :
    Reachable Sample.store ∧ Sample.store.isComplete = true ∧ Sample.admins ∈ Sample.store.teams ∧
      (teamsForGroup .ldap "cn=admins").outcome Sample.store = (.ok [Sample.admins], []) ∧
      (isMapped .ldap Sample.admins.handle "cn=admins").outcome Sample.store = (.ok true, []) ∧
      (teamsForGroup .ldap "cn=admins").outcome
          { Sample.store with oidcGroups := [⟨Sample.id 9, "cn=admins"⟩] } =
        (.ok [Sample.admins], []) := by
  have stored : Sample.admins ∈ Sample.store.teams := by decide
  obtain ⟨teams, events, answer, joined, -, -, relation, known, -, other⟩ :=
    directions_agree Sample.reachable rfl .ldap "cn=admins"
  have reached : teams = [Sample.admins] := joined.trans (List.mergeSort_singleton Sample.admins)
  obtain rfl : events = [] := known.mpr ⟨Sample.admins, stored, List.mem_singleton.mpr rfl⟩
  subst reached
  obtain ⟨_, mapped, -, answers, listed, holds⟩ := relation _ stored Sample.admins.handle rfl
  obtain rfl : mapped = true := holds.mp (listed.mp (by decide))
  have unchanged := (other { Sample.store with oidcGroups := [⟨Sample.id 9, "cn=admins"⟩] } rfl
    ⟨rfl, rfl⟩).1
  exact ⟨Sample.reachable, rfl, stored, answer, answers, unchanged.trans answer⟩

end GroupMapping

end TeamAccess
