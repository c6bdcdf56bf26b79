import TeamAccess.Proofs.Script.Reference
import TeamAccess.Proofs.Service.Keeps

/-! # What scripts keep

A command that only reads keeps every invariant of the rows; every command stays within every closed
invariant that also survives the removal of a table. So does a whole script, whatever fails in it
and whatever is committed.
-/

namespace TeamAccess

/-- Whether a command only reads. -/
def Command.reads : Command → Bool
  | .getPermission _ | .listPermissions | .getTeam _ | .listTeams | .findUser .. | .resolve ..
  | .getUserPrincipal _ | .listUsers _ | .getApiKey _ | .getOidcGroup _ | .listOidcGroups
  | .teamsForGroup .. | .groupsForTeam .. | .isMapped .. | .userHas .. | .teamHas .. | .keyHas ..
  | .effective _ | .authorize .. | .dump => true
  | _ => false

/-- The steps of an entry. -/
def Entry.steps : Entry → List Step
  | .single step => [step]
  | .transaction steps _ => steps

/-- An entry that removes no table. -/
def Entry.KeepsTables (entry : Entry) : Prop :=
  ∀ step ∈ entry.steps, ∀ name, step.command ≠ .dropTable name

namespace Script

open TeamAccess.Action

/-- A script may map any team, stored or not. -/
abbrev AnyTeam : Store → Uuid → Prop := fun _ _ => True

variable {I : Store → Prop} {E : Failure → Prop}

section Reading

variable (h : Lenient E)

include h

theorem kindOf_keeps (text : String) : Keeps I E (kindOf text) := by
  unfold kindOf
  split
  · exact Keeps.pure _
  · exact Keeps.throw (h _ rfl)

theorem sourceOf_keeps (text : String) : Keeps I E (sourceOf text) := by
  unfold sourceOf
  split
  · exact Keeps.pure _
  · exact Keeps.throw (h _ rfl)

theorem found_keeps {α : Type} (what : Named) (found : Option α) :
    Keeps I E (Script.found what found) := by
  cases found with
  | some a => exact Keeps.pure a
  | none => exact Keeps.throw (h _ rfl)

theorem storedPrincipal_keeps (kind : PrincipalKind) (name : String) :
    Keeps I E (storedPrincipal kind name) :=
  (Principals.resolve?_keeps h _ _).bind fun _ => (found_keeps h _ _).bind fun _ => Keeps.pure _

theorem principal?_keeps (ref : PrincipalRef) : Keeps I E (principal? ref) := by
  cases ref with
  | nobody => exact Keeps.pure _
  | stored kind name =>
    exact (kindOf_keeps h _).bind fun _ => (storedPrincipal_keeps h _ _).bind fun _ => Keeps.pure _
  | ghost kind name id => exact (kindOf_keeps h _).bind fun _ => Keeps.pure _
  | copyOf kind name stored =>
    exact (kindOf_keeps h _).bind fun _ => (storedPrincipal_keeps h _ _).bind fun _ => Keeps.pure _

theorem subject_keeps (asked : String) (p : Option PrincipalHandle) :
    Keeps I E (subject asked p) := by
  cases p with
  | some p => exact Keeps.pure p
  | none => exact Keeps.throw (h _ rfl)

theorem principal_keeps (ref : PrincipalRef) : Keeps I E (principal ref) :=
  (principal?_keeps h ref).bind fun _ => subject_keeps h _ _

theorem storedTeam_keeps (name : String) : Keeps I E (storedTeam name) :=
  (Teams.find?_keeps h _).bind fun _ => (found_keeps h _ _).bind fun _ => Keeps.pure _

theorem team_keeps (ref : TeamRef) : Keeps I E (team ref) := by
  cases ref with
  | ghost name id => exact Keeps.pure _
  | _ => exact (storedTeam_keeps h _).bind fun _ => Keeps.pure _

/-- What is known of each team that a reference hands in stays known while the next ones are looked
up. -/
theorem team_carries {P : Store → Prop} {K : TeamHandle → Store → Prop} (ref : TeamRef)
    (hK : ∀ st handle, P st → st.teamOf? ref = some handle → K handle st)
    (known : List TeamHandle) :
    Carries I E (fun st => P st ∧ ∀ handle ∈ known, K handle st) (team ref)
      fun handle st => P st ∧ ∀ handle' ∈ handle :: known, K handle' st := by
  refine (Carries.finds (team_keeps h ref) fun _ => team_finds ref).imp ?_
  rintro handle st ⟨⟨hp, hk⟩, hf⟩
  refine ⟨hp, fun handle' hm => ?_⟩
  rcases List.mem_cons.mp hm with rfl | hm
  · exact hK st handle' hp hf
  · exact hk handle' hm

theorem permission_keeps (name : String) : Keeps I E (permission name) :=
  (Permissions.find?_keeps h _).bind fun _ => found_keeps h _ _

theorem oidcGroup_keeps (name : String) : Keeps I E (oidcGroup name) :=
  (Groups.find?_keeps h _).bind fun _ => found_keeps h _ _

theorem setAttribute_keeps (profile : Profile) (name : String) (value : Json) :
    Keeps I E (setAttribute profile name value) := by
  unfold setAttribute
  split
  case h_4 => exact Keeps.throw (h.fault _)
  case h_8 => exact Keeps.throw (h _ rfl)
  all_goals exact Keeps.pure _

omit h in
theorem during_apply {α : Type} (outage : Option Outage) (act : Action α) (s : Session) :
    during outage act s = match act { s with outage } with
      | .ok a s' => .ok a { s' with outage := none }
      | .error f s' => .error f { s' with outage := none } := by
  have finish : ∀ t, (tryFinally act (modify fun s => { s with outage := none }) : Action α) t =
      match act t with
      | .ok a s' => .ok a { s' with outage := none }
      | .error f s' => .error f { s' with outage := none } := by
    intro t
    unfold tryFinally
    rw [map_apply]
    unfold tryFinally' EStateM.instMonadFinally
    dsimp only
    cases act t <;> rfl
  exact finish _

omit h in
theorem during_keeps {α : Type} {outage : Option Outage} {act : Action α}
    (ho : ∀ o ∈ outage, E o.failure) (ha : Keeps I E act) : Keeps I E (during outage act) := by
  intro s hs
  rw [during_apply]
  have hw := ha { s with outage } ⟨hs.durable, hs.current, ho⟩
  revert hw
  cases act { s with outage } with
  | ok a s' => exact fun hw => ⟨⟨hw.1.durable, hw.1.current, by simp⟩, trivial⟩
  | error f s' => exact fun hw => ⟨⟨hw.1.durable, hw.1.current, by simp⟩, hw.2⟩

theorem describe_keeps (record : TeamRecord) : Keeps I E (describe record) :=
  (Groups.dnsForTeam_keeps h _).bind fun _ => (Groups.namesForTeam_keeps h _).bind fun _ =>
    Keeps.pure _

theorem inventory_keeps : Keeps I E inventory := by
  refine (Permissions.list_keeps h).bind fun permissions => ?_
  refine (Teams.list_keeps h).bind fun teams => ?_
  refine (Keeps.mapM fun team _ => describe_keeps h team).bind fun teams => ?_
  refine (Keeps.mapM fun kind _ => (Principals.listUsers_keeps h _).bind fun _ =>
    Keeps.pure _).bind fun users => ?_
  have keys : Keeps I E (query [.apiKeys] (·.allApiKeys)) := h.reads fun _ => ⟨_, Reads.query _ _⟩
  refine keys.bind fun keys => (loadKeys_keeps h keys).bind fun keys => ?_
  exact (Groups.list_keeps h).bind fun _ => Keeps.pure _

/-- Commands that only read keep every invariant of the rows. -/
theorem perform_keeps_of_reads {outage : Option Outage} (ho : ∀ o ∈ outage, E o.failure)
    {command : Command} (hr : command.reads = true) : Keeps I E (perform outage command) := by
  cases command with
  | getPermission name => exact (Permissions.find?_keeps h _).bind fun _ => Keeps.pure _
  | listPermissions => exact (Permissions.list_keeps h).bind fun _ => Keeps.pure _
  | getTeam name => exact (Teams.find?_keeps h _).bind fun _ => Keeps.pure _
  | listTeams => exact (Teams.list_keeps h).bind fun _ => Keeps.pure _
  | findUser kind name =>
    exact (kindOf_keeps h kind).bind fun _ => (Principals.findUser?_keeps h _ _).bind fun _ =>
      Keeps.pure _
  | resolve kind name =>
    exact (kindOf_keeps h kind).bind fun _ => (Principals.resolve?_keeps h _ _).bind fun _ =>
      Keeps.pure _
  | getUserPrincipal name => exact (Principals.findAnyUser?_keeps h _).bind fun _ => Keeps.pure _
  | listUsers kind =>
    exact (kindOf_keeps h kind).bind fun _ => (Principals.listUsers_keeps h _).bind fun _ =>
      Keeps.pure _
  | getApiKey key => exact (Principals.findApiKey?_keeps h _).bind fun _ => Keeps.pure _
  | getOidcGroup name => exact (Groups.find?_keeps h _).bind fun _ => Keeps.pure _
  | listOidcGroups => exact (Groups.list_keeps h).bind fun _ => Keeps.pure _
  | teamsForGroup source group =>
    exact (sourceOf_keeps h _).bind fun _ => (GroupMapping.teamsForGroup_keeps h _ _).bind fun _ =>
      Keeps.pure _
  | groupsForTeam source ref =>
    exact (sourceOf_keeps h _).bind fun _ => (team_keeps h _).bind fun _ =>
      (GroupMapping.groupsForTeam_keeps h _ _).bind fun _ => Keeps.pure _
  | isMapped source ref group =>
    exact (sourceOf_keeps h _).bind fun _ => (team_keeps h _).bind fun _ =>
      (GroupMapping.isMapped_keeps h _ _ _).bind fun _ => Keeps.pure _
  | userHas ref name includeTeams =>
    exact (principal_keeps h ref).bind fun _ =>
      (during_keeps ho (Evaluation.userHas_keeps h _ _ _)).bind fun _ => Keeps.pure _
  | teamHas ref name =>
    exact (team_keeps h ref).bind fun _ =>
      (during_keeps ho (Evaluation.teamHas_keeps h _ _)).bind fun _ => Keeps.pure _
  | keyHas ref name =>
    exact (principal_keeps h ref).bind fun _ =>
      (during_keeps ho (Evaluation.keyHas_keeps h _ _)).bind fun _ => Keeps.pure _
  | effective ref =>
    exact (principal_keeps h ref).bind fun _ =>
      (during_keeps ho (Evaluation.effective_keeps h _)).bind fun _ => Keeps.pure _
  | authorize ref required =>
    exact (principal?_keeps h ref).bind fun _ =>
      (during_keeps ho (Decision.authorize_keeps h _ _)).bind fun _ => Keeps.pure _
  | dump => exact (inventory_keeps h).bind fun _ => Keeps.pure _
  | _ => simp [Command.reads] at hr

end Reading

section Commands

variable (h : Regime AnyTeam I E)

include h

/-- Every command stays within a closed invariant, the removal of a table only if it survives that.
-/
theorem perform_keeps {outage : Option Outage} (ho : ∀ o ∈ outage, E o.failure) (command : Command)
    (hd : ∀ name, command = .dropTable name → ∀ s table, I s → I (s.dropTable table)) :
    Keeps I E (perform outage command) := by
  cases command with
  | createPermission name description =>
    exact (Permissions.create_keeps h _ _).bind fun _ => Keeps.pure _
  | createTeam name => exact (Teams.create_keeps h _).bind fun _ => Keeps.pure _
  | renameTeam ref name =>
    refine (team_keeps h.failure ref).bind fun t => ?_
    split
    · exact Keeps.pure _
    · exact (Teams.rename_keeps h _ _).bind fun _ => Keeps.pure _
  | createUser kind name attributes =>
    refine (kindOf_keeps h.failure kind).bind fun kind => ?_
    refine (Principals.userKind_keeps h.failure kind).bind fun k => ?_
    refine (Keeps.foldlM fun p a _ => setAttribute_keeps h.failure p a.1 a.2).bind fun profile => ?_
    exact (Principals.createUser_keeps h _ _).bind fun _ => Keeps.pure _
  | createApiKey key refs =>
    have found := Carries.mapM (I := I) (P := fun _ => True) fun ref (_ : ref ∈ refs) =>
      team_carries h.failure ref fun _ _ _ => Store.known_of_teamOf?
    refine Carries.keeps (Q := fun _ _ => True) (found.bind fun handles => ?_)
    have stored := Carries.mapM fun handle (hm : handle ∈ handles) => Teams.store_carries h hm
    refine Carries.bind (Carries.weaken stored fun _ => And.right) fun teams => ?_
    refine Carries.bind (Carries.weaken (Principals.createApiKey_carries h key teams) ?_)
      fun _ => .pure fun _ _ => trivial
    exact fun _ => And.right
  | regenerateApiKey ref key =>
    refine (principal_keeps h.failure ref).bind fun p => ?_
    split
    · exact (Principals.regenerateApiKey_keeps h _ _).bind fun _ => Keeps.pure _
    · exact (Principals.lock_keeps h.failure _).bind fun _ => Keeps.pure _
  | createOidcGroup name => exact (Groups.create_keeps h _).bind fun _ => Keeps.pure _
  | mapLdap ref group =>
    refine (team_keeps h.failure ref).bind fun t => ?_
    have mapped := (Groups.mapLdap_carries h t group).yields (S := fun _ => True)
      (fun _ _ _ => trivial) fun _ _ => id
    exact mapped.bind fun _ _ => (Groups.dnsForTeam_keeps h.failure _).bind fun _ => Keeps.pure _
  | mapOidc ref group =>
    refine (team_keeps h.failure ref).bind fun t => ?_
    refine Carries.keeps (Q := fun _ _ => True) ?_
    refine Carries.bind (.finds (oidcGroup_keeps h.failure group) fun _ => oidcGroup_finds group)
      fun g => ?_
    refine Carries.bind ((Groups.mapOidc_carries h t g).weaken fun st hst =>
      ⟨Store.hasGroup_of_oidcGroup? hst.2, fun _ _ => trivial⟩) fun _ => ?_
    exact .of_yields ((Groups.namesForTeam_keeps h.failure _).bind fun _ => Keeps.pure _)
  | unmapLdap ref group =>
    exact (team_keeps h.failure ref).bind fun _ => (Groups.unmapLdap_keeps h _ _).bind fun _ =>
      Keeps.pure _
  | unmapOidc ref group =>
    exact (team_keeps h.failure ref).bind fun _ => (oidcGroup_keeps h.failure _).bind fun _ =>
      (Groups.unmapOidc_keeps h _ _).bind fun _ => Keeps.pure _
  | grantTeam ref name =>
    refine Carries.keeps (Q := fun _ _ => True) ?_
    refine Carries.bind (.finds (team_keeps h.failure ref) fun _ => team_finds ref) fun t => ?_
    refine Carries.bind (.finds (permission_keeps h.failure name) fun _ => permission_finds name)
      fun p => ?_
    refine Carries.bind ((Permissions.grantToTeam_carries h t p).weaken fun st hst =>
      ⟨Store.known_of_teamOf? hst.1.2, Store.hasPermission_of_permission? hst.2⟩) fun _ => ?_
    exact .pure fun _ _ => trivial
  | revokeTeam ref name =>
    exact (team_keeps h.failure ref).bind fun _ => (permission_keeps h.failure _).bind fun _ =>
      (Permissions.revokeFromTeam_keeps h _ _).bind fun _ => Keeps.pure _
  | grantUser ref name =>
    refine Carries.keeps (Q := fun _ _ => True) ?_
    refine Carries.bind (.finds (principal?_keeps h.failure ref) fun _ => principal?_finds ref)
      fun p => ?_
    refine Carries.bind (.finds (permission_keeps h.failure name) fun _ => permission_finds name)
      fun granted => ?_
    refine Carries.bind (.finds (subject_keeps h.failure "permissions" p)
      fun _ => subject_finds "permissions" p) fun p' => ?_
    refine Carries.bind ((Permissions.grantToUser_carries h p' granted).weaken fun st hst => ?_)
      fun _ => .pure fun _ _ => trivial
    obtain ⟨⟨⟨-, hp⟩, hg⟩, hp'⟩ := hst
    obtain rfl := Option.mem_def.mp hp'
    exact ⟨Store.known_of_principalOf? hp, Store.hasPermission_of_permission? hg⟩
  | bootstrap username => exact (Bootstrap.ensure_keeps h _).bind fun _ => Keeps.pure _
  | dropTable name =>
    have dropped : Keeps I E (Script.dropTable name) := by
      unfold Script.dropTable
      split
      · exact Keeps.throw (h.fault _)
      · exact Keeps.update h.fault fun s => hd name rfl s _
    exact dropped.bind fun _ => Keeps.pure _
  | addMember ref teamRef =>
    refine (principal?_keeps h.failure ref).bind fun _ => ?_
    exact (team_keeps h.failure teamRef).bind fun _ => (subject_keeps h.failure _ _).bind fun _ =>
      (during_keeps ho (MembershipService.add_keeps h _ _)).bind fun _ => Keeps.pure _
  | removeMember ref teamRef =>
    refine (principal?_keeps h.failure ref).bind fun _ => ?_
    exact (team_keeps h.failure teamRef).bind fun _ => (subject_keeps h.failure _ _).bind fun _ =>
      (during_keeps ho (MembershipService.remove_keeps h _ _)).bind fun _ => Keeps.pure _
  | sync ref groups =>
    exact (principal?_keeps h.failure ref).bind fun _ =>
      (Assertion.refuseLoneText_keeps h.failure groups).bind fun _ =>
        (subject_keeps h.failure _ _).bind fun _ =>
          (during_keeps ho (Synchronization.synchronize_keeps h _ _)).bind fun _ => Keeps.pure _
  | _ => exact perform_keeps_of_reads h.failure ho rfl

end Commands

section Runs

/-- The rows of a session are within an invariant. -/
abbrev Inside (I : Store → Prop) : Session → Prop := Within I fun _ => True

section

variable {step : Step} (hk : Keeps I (fun _ => True) (perform step.outage step.command))

include hk

theorem runStep_inside {s : Session} (hs : Inside I s) : Inside I (runStep step s).2 := by
  have hk := hk { s with events := [], outage := none } ⟨hs.durable, hs.current, fun _ _ => trivial⟩
  unfold runStep
  revert hk
  cases perform step.outage step.command { s with events := [], outage := none } with
  | ok answer s' => exact fun hk => ⟨hk.1.durable, hk.1.current, fun _ _ => trivial⟩
  | error f s' => exact fun hk => ⟨hk.1.durable, hk.1.current, fun _ _ => trivial⟩

theorem runSingle_keeps {s : Store} (hs : I s) : I (runSingle step s).2 := by
  have hw := runStep_inside hk (s := Session.start s) ⟨hs, hs, fun _ _ => trivial⟩
  unfold runSingle
  dsimp only
  split
  · exact hw.current
  · exact hw.durable

end

theorem runShared_inside {steps : List Step}
    (hk : ∀ step ∈ steps, Keeps I (fun _ => True) (perform step.outage step.command))
    {s : Session} (hs : Inside I s) : Inside I (runShared steps s).2.2 := by
  induction steps generalizing s with
  | nil => exact hs
  | cons step steps ih =>
    have hw := runStep_inside (hk step (by simp)) hs
    unfold runShared
    dsimp only
    split
    · exact ih (fun step hm => hk step (by simp [hm])) hw
    · exact hw

/-- An entry stays within an invariant that each of its steps stays within. -/
theorem runEntry_keeps_of_steps {entry : Entry}
    (hk : ∀ step ∈ entry.steps, Keeps I (fun _ => True) (perform step.outage step.command))
    {s : Store} (hs : I s) : I (runEntry entry s).2 := by
  cases entry with
  | single step => exact runSingle_keeps (hk step (by simp [Entry.steps])) hs
  | transaction steps commit =>
    have hw := runShared_inside hk (s := Session.start s) ⟨hs, hs, fun _ _ => trivial⟩
    unfold runEntry runTransaction
    dsimp only
    split
    · exact hw.current
    · exact hw.durable

variable (hI : Store.Closed AnyTeam I)

include hI

theorem runEntry_keeps (hd : ∀ s table, I s → I (s.dropTable table)) (entry : Entry) {s : Store}
    (hs : I s) : I (runEntry entry s).2 :=
  runEntry_keeps_of_steps (fun step _ => perform_keeps ⟨hI, fun _ _ => trivial⟩
    (fun _ _ => trivial) step.command fun _ _ => hd) hs

/-- A script that removes no table stays within every closed invariant. -/
theorem run_keeps {entries : List Entry} (hd : ∀ entry ∈ entries, entry.KeepsTables) {s : Store}
    (hs : I s) : I (run entries s).2 := by
  induction entries generalizing s with
  | nil => exact hs
  | cons entry entries ih =>
    refine ih (fun entry hm => hd entry (by simp [hm])) ?_
    refine runEntry_keeps_of_steps (fun step hm => ?_) hs
    exact perform_keeps ⟨hI, fun _ _ => trivial⟩ (fun _ _ => trivial) step.command
      fun name he => absurd he (hd entry (by simp) step hm name)

end Runs

end Script

end TeamAccess
