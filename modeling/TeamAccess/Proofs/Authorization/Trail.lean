import TeamAccess.Proofs.Authorization.Grant
import TeamAccess.Proofs.Authorization.Stage
import TeamAccess.Service.Decision

/-! # The trail of a decision

The rows of a store determine the stages that the decision about a principal goes through. Whatever
fails, the decision follows this trail, and a verdict on it grants exactly if one of the required
permissions is granted.
-/

namespace TeamAccess

open TeamAccess.Action

variable {st : Store} {p q : PrincipalHandle} {name : String} {required : List String}

namespace Stage

/-- The stages of asking whether one of some teams holds a permission. -/
def ofTeams (st : Store) (name : String) (teams : List Team) : List Stage :=
  teams.flatMap fun t =>
    [.access (.call .teamHas), .access (.read [.teamGrants, .permissions]),
      .verdict (st.teamHolds t.id name)]

/-- The stages of asking whether a principal that has been read again holds a permission. -/
def ofRecord (st : Store) (name : String) : PrincipalRecord → List Stage
  | .user r =>
    [.access (.call .userHas), .access (.read [.userGrants r.user.kind, .permissions]),
      .verdict (st.userHolds r.user.kind r.user.id name)] ++ ofTeams st name r.teams
  | .apiKey r => ofTeams st name r.teams

/-- The stages of reading a principal again and asking whether it holds a permission. -/
def ofCheck (st : Store) (p : PrincipalHandle) (name : String) : List Stage :=
  (Probe.call .reload :: fetchProbes st p).map .access ++
    (st.record? p).elim [.absent p] (ofRecord st name)

/-- The stages of asking whether a principal holds one of the required permissions. -/
def trail (st : Store) (p : PrincipalHandle) (required : List String) : List Stage :=
  match p.kind with
  | .apiKey => required.flatMap (ofCheck st p)
  | .user kind =>
    (.call .findUser :: .read [.users kind] ::
      (st.user? kind p.name).elim [] (userProbes st)).map .access ++
    (st.user? kind p.name).elim [.absent p] fun u => required.flatMap (ofCheck st u.handle)

end Stage

section Follows

theorem someTeamHas_follows (name : String) (teams : List Team) :
    Follows st (Evaluation.someTeamHas name teams) (Stage.ofTeams st name teams) := by
  induction teams with
  | nil => exact .pure_false
  | cons t teams ih => exact (Follows.check (Permissions.teamHas_traces t.id name)).orElse ih

theorem userHas_follows {kind : UserKind} (hp : p.kind = .user kind) (name : String) :
    Follows st (Evaluation.userHas p name true) (Stage.ofCheck st p name) := by
  refine Follows.guarded ?_
  have hr := @Principals.reload_traces st p
  unfold Stage.ofCheck
  cases h : st.record? p with
  | none =>
    rw [h] at hr
    exact .missing hr
  | some r =>
    rw [h] at hr
    obtain ⟨u, -, -, rfl⟩ := Store.record?_user hp h
    refine .after hr ?_
    exact (Follows.check (Permissions.directlyHas_traces u.kind u.id name)).orElse
      (someTeamHas_follows name _)

theorem keyHas_follows (hp : p.kind = .apiKey) (name : String) :
    Follows st (Evaluation.keyHas p name) (Stage.ofCheck st p name) := by
  refine Follows.guarded ?_
  have hr := @Principals.reload_traces st p
  unfold Stage.ofCheck
  cases h : st.record? p with
  | none =>
    rw [h] at hr
    exact .missing hr
  | some r =>
    rw [h] at hr
    obtain ⟨k, -, -, rfl⟩ := Store.record?_apiKey hp h
    exact .after hr (someTeamHas_follows name _)

theorem firstPassing_follows {test : String → Action Bool} {stages : String → List Stage}
    (h : ∀ name, Follows st (test name) (stages name)) (required : List String) :
    Follows st (Decision.firstPassing test required) (required.flatMap stages) := by
  induction required with
  | nil => exact .pure_false
  | cons name required ih => exact (h name).orElse ih

/-- Whatever fails, the question whether a principal holds one of the required permissions follows
its trail. -/
theorem granted_follows (p : PrincipalHandle) (required : List String) :
    Follows st (Decision.granted p required) (Stage.trail st p required) := by
  unfold Decision.granted Stage.trail
  cases hp : p.kind with
  | apiKey => exact firstPassing_follows (keyHas_follows hp) required
  | user kind =>
    dsimp only
    unfold Decision.userGranted
    rw [hp]
    have hf := @Principals.findUser?_traces st kind p.name
    cases hu : st.user? kind p.name with
    | none =>
      rw [hu] at hf
      exact .after hf (.absent p)
    | some u =>
      rw [hu] at hf
      exact .after hf (firstPassing_follows (userHas_follows rfl) required)

end Follows

section Verdicts

theorem verdict_mem_ofTeams {teams : List Team} :
    .verdict true ∈ Stage.ofTeams st name teams ↔
      ∃ t ∈ teams, st.teamHolds t.id name = true := by
  simp [Stage.ofTeams]

theorem verdict_mem_ofRecord_user {r : UserRecord} :
    .verdict true ∈ Stage.ofRecord st name (.user r) ↔
      st.userHolds r.user.kind r.user.id name = true ∨
        ∃ t ∈ r.teams, st.teamHolds t.id name = true := by
  simp [Stage.ofRecord, verdict_mem_ofTeams]

theorem verdict_mem_ofCheck :
    .verdict true ∈ Stage.ofCheck st p name ↔
      ∃ r ∈ st.record? p, .verdict true ∈ Stage.ofRecord st name r := by
  cases h : st.record? p <;> simp [Stage.ofCheck, h]

theorem verdict_mem_ofCheck_user (h : st.Distinct) {u : User} (hu : u ∈ st.users) :
    .verdict true ∈ Stage.ofCheck st u.handle name ↔
      st.userHolds u.kind u.id name = true ∨
        ∃ t ∈ st.teamsOf (.user u.kind) u.id, st.teamHolds t.id name = true := by
  simp [verdict_mem_ofCheck, h.record?_handle hu, verdict_mem_ofRecord_user, Store.userRecord]

theorem verdict_mem_ofCheck_apiKey (hp : p.kind = .apiKey) :
    .verdict true ∈ Stage.ofCheck st p name ↔
      ∃ r ∈ st.record? p, ∃ t ∈ r.teams, st.teamHolds t.id name = true := by
  rw [verdict_mem_ofCheck]
  refine exists_congr fun r => and_congr_right fun hr => ?_
  obtain ⟨k, -, -, rfl⟩ := Store.record?_apiKey hp hr
  exact verdict_mem_ofTeams

/-- A verdict on the trail grants exactly if one of the required permissions is granted. -/
theorem verdict_mem_trail (h : st.Distinct) :
    .verdict true ∈ Stage.trail st p required ↔ ∃ name ∈ required, st.Granted p name := by
  unfold Stage.trail
  cases hp : p.kind with
  | apiKey =>
    simp only [List.mem_flatMap]
    refine exists_congr fun name => and_congr_right fun _ => ?_
    rw [verdict_mem_ofCheck_apiKey hp, Store.granted_apiKey_iff h hp]
  | user kind =>
    simp only [Store.granted_user_iff h hp]
    cases hu : st.user? kind p.name with
    | none => simp
    | some u =>
      obtain ⟨hm, -⟩ := h.user?_eq_some_iff.mp hu
      simp [verdict_mem_ofCheck_user h hm]

theorem absent_not_mem_ofTeams {teams : List Team} : .absent q ∉ Stage.ofTeams st name teams := by
  simp [Stage.ofTeams]

theorem absent_mem_ofCheck (h : .absent q ∈ Stage.ofCheck st p name) :
    st.record? p = none := by
  cases hr : st.record? p with
  | none => rfl
  | some r =>
    refine absurd h ?_
    cases r <;> simp [Stage.ofCheck, Stage.ofRecord, hr, absent_not_mem_ofTeams]

/-- Where the discovery that a principal is not stored is on the trail, nothing grants. -/
theorem verdict_not_mem_trail_of_absent (h : st.Distinct)
    (ha : .absent q ∈ Stage.trail st p required) :
    .verdict true ∉ Stage.trail st p required := by
  unfold Stage.trail at ha ⊢
  cases hp : p.kind with
  | apiKey =>
    simp only [hp, List.mem_flatMap] at ha ⊢
    obtain ⟨name, -, ha⟩ := ha
    have hr := absent_mem_ofCheck ha
    rintro ⟨name', -, hv⟩
    obtain ⟨r, hr', -⟩ := verdict_mem_ofCheck.mp hv
    simp [hr] at hr'
  | user kind =>
    simp only [hp] at ha ⊢
    cases hu : st.user? kind p.name with
    | none => simp
    | some u =>
      obtain ⟨hm, -⟩ := h.user?_eq_some_iff.mp hu
      simp only [hu, Option.elim_some, List.mem_append, List.mem_map, List.mem_flatMap] at ha
      rcases ha with ⟨probe, -, he⟩ | ⟨name, -, ha⟩
      · simp at he
      · have hr := absent_mem_ofCheck ha
        simp [h.record?_handle hm] at hr

end Verdicts

end TeamAccess
