import TeamAccess.Proofs.Authorization.Decision
import TeamAccess.Proofs.Reachable
import TeamAccess.Proofs.Service.Shifts

/-! # What a step changes in the decisions

A step changes only the decisions that its command names, and each in one direction only. What a
command brings and takes at most is read off the rows before it.
-/

namespace TeamAccess

open TeamAccess.Action

variable {s : Store}

namespace Store

/-- A handle stands for the stored principal that is handed in for a reference. -/
def Refers (s : Store) (ref : PrincipalRef) (p : PrincipalHandle) : Prop :=
  ∃ q, s.principalOf? ref = some (some q) ∧ s.Denotes q p

/-- A handle stands for a member of the team that is handed in for a reference. -/
def RefersIn (s : Store) (ref : TeamRef) (p : PrincipalHandle) : Prop :=
  ∃ t, s.teamOf? ref = some t ∧ s.BelongsTo t p

/-- No membership waits for a team that a reference hands in, unless it is made up. -/
theorem settled_of_teamOf? {ref : TeamRef} {handle : TeamHandle} {id : Uuid}
    (hg : ∀ name n, ref = .ghost name (some n) → s.Attached) (h : s.teamOf? ref = some handle)
    (hid : id ∈ handle.id) : s.Settled id := by
  cases ref with
  | stored name =>
    obtain ⟨t, hf, rfl⟩ := Option.map_eq_some_iff.mp h
    exact fun _ _ _ => ⟨t, List.mem_of_find?_eq_some hf, by simpa [Team.handle] using hid⟩
  | ghost name n =>
    obtain rfl := Option.some.inj h
    obtain ⟨n, rfl, rfl⟩ := Option.map_eq_some_iff.mp hid
    exact (hg name n rfl).settled _
  | copyOf name stored =>
    obtain ⟨t, hf, rfl⟩ := Option.map_eq_some_iff.mp h
    exact fun _ _ _ => ⟨t, List.mem_of_find?_eq_some hf, by simpa using hid⟩

end Store

namespace Command

/-- What a command with an answer may bring to a principal. -/
def Gives (s : Store) (answer : Answer) : Command → PrincipalHandle → String → Prop
  | .grantUser ref granted, p, name => name = granted ∧ s.Refers ref p
  | .addMember ref _, p, _ => s.Refers ref p
  | .sync ref _, p, _ => s.Refers ref p
  | .grantTeam ref granted, p, name => name = granted ∧ s.RefersIn ref p
  | .createApiKey .., p, _ =>
    ∃ r, answer = .principal (.apiKey r) ∧ p.kind = .apiKey ∧ p.id = some r.apiKey.id
  | .bootstrap username, p, name =>
    name = Bootstrap.accessManagement ∧ p.kind = .user .managed ∧ username = some p.name
  | _, _, _ => False

/-- What a command may take from a principal. -/
def Takes (s : Store) : Command → PrincipalHandle → String → Prop
  | .removeMember ref _, p, _ => s.Refers ref p
  | .sync ref _, p, _ => s.Refers ref p
  | .revokeTeam ref revoked, p, name => name = revoked ∧ s.RefersIn ref p
  | _, _, _ => False

end Command

namespace Script

variable {command : Command} {outage : Option Outage} {answer : Answer} {σ : Session}

theorem during_leads {α : Type} {P : Store → Prop} {Q : α → Store → Prop} {act : Action α}
    (h : Leads P act Q) : Leads P (during outage act) Q := by
  rintro s ⟨-, hp⟩
  have hq := h { s with outage } ⟨within_true _, hp⟩
  rw [during_apply]
  revert hq
  cases act { s with outage } with
  | ok a s' => exact fun hq => ⟨within_true _, hq.2⟩
  | error f s' => exact fun hq => ⟨within_true _, trivial⟩

theorem of_during_ok {α : Type} {act : Action α} {a : α}
    (h : during outage act (Session.start s) = .ok a σ) :
    ∃ τ, act (Session.start s outage) = .ok a τ ∧ σ.current = τ.current := by
  have hit : { Session.start s with outage } = Session.start s outage := rfl
  rw [during_apply, hit] at h
  cases hx : act (Session.start s outage) with
  | ok b τ =>
    rw [hx] at h
    cases h
    exact ⟨τ, rfl, rfl⟩
  | error f τ =>
    rw [hx] at h
    cases h

theorem setAttribute_leads {P : Store → Prop} (profile : Profile) (name : String) (value : Json) :
    Leads P (setAttribute profile name value) fun _ => P := by
  unfold setAttribute
  split
  case h_4 | h_8 => exact Carries.throw trivial
  all_goals exact .pure fun _ => id

section Commands

variable {gain loss : PrincipalHandle → String → Prop}

theorem createUser_shifts (kind name : String) (attributes : List (String × Json)) :
    Leads (· = s) (perform outage (.createUser kind name attributes)) fun _ =>
      Store.Shifts gain loss s := by
  refine Leads.find (fun _ => kindOf_finds kind) fun kind _ => ?_
  have profiled (k : UserKind) : Leads (· = s) (attributes.foldlM
      (fun p a => setAttribute p a.1 a.2) (blankProfile k)) fun _ => (· = s) :=
    Carries.foldlM fun p a => setAttribute_leads p a.1 a.2
  cases kind with
  | apiKey => exact fun _ hs => ⟨hs.1, trivial⟩
  | user k =>
    refine Leads.find (fun _ => .pure k) fun _ _ => ?_
    exact (profiled _).bind fun profile =>
      Shifting.bind_pure (Principals.createUser_shifts name profile) _

theorem createApiKey_shifts (key : String) (refs : List TeamRef)
    (hg : ∀ name n, .ghost name (some n) ∈ refs → s.Attached) :
    Leads (· = s) (perform outage (.createApiKey key refs)) fun answer =>
      Store.Shifts (Command.Gives s answer (.createApiKey key refs)) loss s := by
  have looked : Leads (· = s) (refs.mapM team) fun handles st =>
      st = s ∧ ∀ handle ∈ handles, ∀ id ∈ handle.id, st.Settled id :=
    Carries.mapM fun ref hm => team_carries (fun _ _ => trivial) ref fun st handle hst hf => by
      subst hst
      exact fun id => Store.settled_of_teamOf? (fun name n he => hg name n (he ▸ hm)) hf
  refine looked.bind fun handles => ?_
  have stored : Leads (fun st => (∀ handle ∈ handles, ∀ id ∈ handle.id, st.Settled id) ∧
      Store.Shifts (fun _ _ => False) loss s st) (handles.mapM Teams.store) fun _ => _ :=
    Carries.mapM_same fun t hm => Teams.store_leads hm
  refine Carries.bind (stored.weaken ?_) fun teams => ?_
  · rintro st ⟨rfl, hs⟩
    exact ⟨hs, .refl st⟩
  · refine Carries.bind ((Principals.createApiKey_leads key teams).weaken fun st => And.right)
      fun record => .pure fun st hs => ?_
    exact hs.mono (fun p name hp => ⟨record, rfl, hp⟩) fun _ _ => id

section Answers

variable (h : perform outage command (Session.start s) = .ok answer σ)

include h

theorem of_shifting (hl : Shifting (command.Gives s answer) (command.Takes s) s
    (perform outage command)) :
    Store.Shifts (command.Gives s answer) (command.Takes s) s σ.current := hl.of_ok rfl h

theorem reads_shifts (hr : command.reads = true) : Store.Shifts gain loss s σ.current := by
  have keeps : Keeps (· = s) (fun _ => True) (perform outage command) :=
    perform_keeps_of_reads (fun _ _ => trivial) (fun _ _ => trivial) hr
  have kept := keeps (Session.start s) ⟨rfl, rfl, fun _ _ => trivial⟩
  rw [h] at kept
  rw [kept.1.current]
  exact .refl s

end Answers

theorem sync_shifts {ref : PrincipalRef} {assertion : Assertion} (hs : s.Distinct)
    (hc : s.missing = [])
    (h : perform outage (.sync ref assertion) (Session.start s) = .ok answer σ) :
    Store.Shifts (Command.Gives s answer (.sync ref assertion))
      (Command.Takes s (.sync ref assertion)) s σ.current := by
  obtain ⟨o, ho, named⟩ := Finds.of_bind_ok (principal?_finds ref) rfl h
  have refused : ∃ r, Finds s assertion.refuseLoneText r := by
    cases assertion with
    | loneText => exact ⟨none, _, .throw _⟩
    | _ => exact ⟨_, .pure ()⟩
  obtain ⟨-, -, several⟩ := Finds.of_bind_ok refused.choose_spec rfl named
  obtain ⟨p, hp, run⟩ := Finds.of_bind_ok (subject_finds _ o) rfl several
  obtain ⟨r, τ, hr, hτ⟩ := Action.of_bind_ok run
  obtain ⟨υ, hx, hυ⟩ := of_during_ok hr
  cases hτ
  rw [hυ]
  refine Synchronization.synchronize_shifts hc hs (fun q hq _ => ?_) hx
  have refers : s.Refers ref q := ⟨p, ho.trans (congrArg some hp), hq⟩
  exact ⟨refers, refers⟩

/-- The rows shift as the command says, whatever the outage, if it answers. -/
theorem perform_shifts (hs : s.Distinct) (hc : s.missing = [])
    (ha : ∀ key refs name n, command = .createApiKey key refs → .ghost name (some n) ∈ refs →
      s.Attached)
    (hd : ∀ table, command ≠ .dropTable table)
    (h : perform outage command (Session.start s) = .ok answer σ) :
    Store.Shifts (command.Gives s answer) (command.Takes s) s σ.current := by
  cases command with
  | createPermission name description =>
    exact of_shifting h (Shifting.bind_pure (Permissions.create_shifts name description) _)
  | createTeam name => exact of_shifting h (Shifting.bind_pure (Teams.create_shifts name) _)
  | renameTeam ref name =>
    refine of_shifting h (Leads.find (fun _ => team_finds ref) fun t _ => ?_)
    split
    · exact Shifting.pure _
    · exact Shifting.bind_pure (Teams.rename_shifts _ name) _
  | createUser kind name attributes =>
    exact of_shifting h (createUser_shifts kind name attributes)
  | createApiKey key refs =>
    exact (createApiKey_shifts key refs fun name n => ha key refs name n rfl).of_ok rfl h
  | regenerateApiKey ref key =>
    refine of_shifting h (Leads.find (fun _ => principal_finds ref) fun p _ => ?_)
    split
    · exact Shifting.bind_pure (Principals.regenerateApiKey_shifts p key) _
    · exact Leads.find (fun _ => Principals.lock_finds p) fun r _ => Shifting.pure _
  | createOidcGroup name => exact of_shifting h (Shifting.bind_pure (Groups.create_shifts name) _)
  | mapLdap ref group =>
    refine of_shifting h (Leads.find (fun _ => team_finds ref) fun t _ => ?_)
    exact (Groups.mapLdap_shifts t group).bind fun _ =>
      (Leads.read fun _ => Groups.dnsForTeam_reads t).bind fun _ => .pure fun _ => id
  | mapOidc ref group =>
    refine of_shifting h (Leads.find (fun _ => team_finds ref) fun t _ => ?_)
    refine Leads.find (fun _ => oidcGroup_finds group) fun g _ => ?_
    exact (Groups.mapOidc_shifts t g).bind fun _ =>
      (Leads.read fun _ => Groups.namesForTeam_reads t).bind fun _ => .pure fun _ => id
  | unmapLdap ref group =>
    refine of_shifting h (Leads.find (fun _ => team_finds ref) fun t _ => ?_)
    exact Shifting.bind_pure (Groups.unmapLdap_shifts t group) _
  | unmapOidc ref group =>
    refine of_shifting h (Leads.find (fun _ => team_finds ref) fun t _ => ?_)
    refine Leads.find (fun _ => oidcGroup_finds group) fun g _ => ?_
    exact Shifting.bind_pure (Groups.unmapOidc_shifts t g) _
  | grantTeam ref name =>
    refine of_shifting h (Leads.find (fun _ => team_finds ref) fun t ht => ?_)
    refine Leads.find (fun _ => permission_finds name) fun q hq => ?_
    obtain ⟨hstored, rfl⟩ := Store.stored_of_permission? hq
    refine Shifting.bind_pure (Permissions.grantToTeam_shifts hs hstored t ?_) _
    exact fun p hb => ⟨rfl, t, ht, hb⟩
  | revokeTeam ref name =>
    refine of_shifting h (Leads.find (fun _ => team_finds ref) fun t ht => ?_)
    refine Leads.find (fun _ => permission_finds name) fun q hq => ?_
    obtain ⟨hstored, rfl⟩ := Store.stored_of_permission? hq
    refine Shifting.bind_pure (Permissions.revokeFromTeam_shifts hs hstored t ?_) _
    exact fun p hb => ⟨rfl, t, ht, hb⟩
  | grantUser ref name =>
    refine of_shifting h (Leads.find (fun _ => principal?_finds ref) fun o ho => ?_)
    refine Leads.find (fun _ => permission_finds name) fun q hq => ?_
    refine Leads.find (fun _ => subject_finds _ o) fun p hp => ?_
    obtain rfl := Option.mem_def.mp hp
    obtain ⟨hstored, rfl⟩ := Store.stored_of_permission? hq
    refine Shifting.bind_pure (Permissions.grantToUser_shifts hs hstored p ?_) _
    exact fun q hq => ⟨rfl, p, ho, hq⟩
  | bootstrap username =>
    refine of_shifting h (Shifting.bind_pure (Bootstrap.ensure_shifts hs username ?_) _)
    exact fun p hk hn => ⟨rfl, hk, hn⟩
  | dropTable name => exact absurd rfl (hd name)
  | addMember ref teamRef =>
    refine of_shifting h (Leads.find (fun _ => principal?_finds ref) fun o ho => ?_)
    refine Leads.find (fun _ => team_finds teamRef) fun t _ => ?_
    refine Leads.find (fun _ => subject_finds _ o) fun p hp => ?_
    obtain rfl := Option.mem_def.mp hp
    refine Shifting.bind_pure (during_leads (MembershipService.add_shifts p t ?_)) _
    exact fun q hq _ => ⟨p, ho, hq⟩
  | removeMember ref teamRef =>
    refine of_shifting h (Leads.find (fun _ => principal?_finds ref) fun o ho => ?_)
    refine Leads.find (fun _ => team_finds teamRef) fun t _ => ?_
    refine Leads.find (fun _ => subject_finds _ o) fun p hp => ?_
    obtain rfl := Option.mem_def.mp hp
    refine Shifting.bind_pure (during_leads (MembershipService.remove_shifts p t ?_)) _
    exact fun q hq _ => ⟨p, ho, hq⟩
  | sync ref assertion => exact sync_shifts hs hc h
  | _ => exact reads_shifts h rfl

end Commands

section Decisions

open Decision

theorem perform_of_runSingle {step : Step} (h : (runSingle step s).1.outcome = .ok answer) :
    ∃ σ, perform step.outage step.command (Session.start s) = .ok answer σ ∧
      (runSingle step s).2 = σ.current := by
  have start : { Session.start s with events := [], outage := none } = Session.start s := rfl
  unfold runSingle runStep at h ⊢
  rw [start] at h ⊢
  cases hp : perform step.outage step.command (Session.start s) with
  | ok a σ =>
    rw [hp] at h
    obtain rfl := Except.ok.inj h
    exact ⟨σ, rfl, rfl⟩
  | error f σ =>
    rw [hp] at h
    cases h

theorem authorize_start (hs : s.Distinct) (hc : s.missing = []) (p : PrincipalHandle)
    (required : List String) :
    ∃ d σ, authorize (some p) required (Session.start s) = .ok d σ ∧
      (d = .allow ↔ ∃ name ∈ required, s.Granted p name) := by
  obtain ⟨allows, denies⟩ := authorize_calm (s := Session.start s) ⟨rfl, hc⟩ rfl hs p required
  by_cases hg : ∃ name ∈ required, s.Granted p name
  · exact ⟨.allow, _, allows hg, by simpa using hg⟩
  · obtain ⟨o, reason, ha⟩ := denies hg
    exact ⟨.deny, _, ha, by simpa using hg⟩

end Decisions

end Script

end TeamAccess
