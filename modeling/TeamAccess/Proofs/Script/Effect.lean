import TeamAccess.Proofs.Registry.Drafts
import TeamAccess.Proofs.Script.Keeps
import TeamAccess.Proofs.Store.Presence

/-! # What a command does to the edges

A command that names stored principals and teams sets the presence of at most one edge, or of the
first memberships of a new API key, and of no other. If it is about one edge, it answers whether it
has changed its presence.
-/

namespace TeamAccess

open TeamAccess.Action

/-- A reference to a stored principal by its name. -/
def PrincipalRef.IsStored : PrincipalRef → Prop
  | .stored .. => True
  | _ => False

/-- A reference to a stored team by its name. -/
def TeamRef.IsStored : TeamRef → Prop
  | .stored _ => True
  | _ => False

/-- Whether an answer reports a change, if it reports on changes at all. -/
def Answer.changed? : Answer → Option Bool
  | .flag b => some b
  | .ldapMapping created _ _ => some created
  | .oidcMapping created _ => some created
  | _ => none

namespace Command

/-- A command that changes edges of stored principals and teams one by one, or no edges at all. -/
def IsPlain : Command → Prop
  | .createApiKey _ refs => ∀ ref ∈ refs, ref.IsStored
  | .mapLdap ref _ | .mapOidc ref _ | .unmapLdap ref _ | .unmapOidc ref _ | .grantTeam ref _
  | .revokeTeam ref _ => ref.IsStored
  | .grantUser ref _ => ref.IsStored
  | .addMember ref teamRef | .removeMember ref teamRef => ref.IsStored ∧ teamRef.IsStored
  | .bootstrap _ | .dropTable _ | .sync .. => False
  | _ => True

/-- Whether a command adds or removes one edge. -/
def edits : Command → Bool
  | .mapLdap .. | .mapOidc .. | .unmapLdap .. | .unmapOidc .. | .grantTeam .. | .revokeTeam ..
  | .grantUser .. | .addMember .. | .removeMember .. => true
  | _ => false

/-- The edge that a command adds or removes, by the rows before it, and whether it adds it. -/
def edge? (s : Store) : Command → Option (Edge × Bool)
  | .addMember ref teamRef => do
    let p ← (s.principalOf? ref).join
    let t ← s.teamOf? teamRef
    return (.member ⟨p.kind, ← p.id, ← t.id⟩, true)
  | .removeMember ref teamRef => do
    let p ← (s.principalOf? ref).join
    let t ← s.teamOf? teamRef
    return (.member ⟨p.kind, ← p.id, ← t.id⟩, false)
  | .grantTeam ref name => do
    let t ← s.teamOf? ref
    let q ← s.permission? name
    return (.teamGrant ⟨← t.id, q.id⟩, true)
  | .revokeTeam ref name => do
    let t ← s.teamOf? ref
    let q ← s.permission? name
    return (.teamGrant ⟨← t.id, q.id⟩, false)
  | .grantUser ref name => do
    let p ← (s.principalOf? ref).join
    let q ← s.permission? name
    return (.userGrant ⟨← p.kind.userKind?, ← p.id, q.id⟩, true)
  | .mapLdap ref dn => do
    let t ← s.teamOf? ref
    return (.ldap ⟨← t.id, dn⟩, true)
  | .unmapLdap ref dn => do
    let t ← s.teamOf? ref
    return (.ldap ⟨← t.id, dn⟩, false)
  | .mapOidc ref group => do
    let t ← s.teamOf? ref
    let g ← s.oidcGroup? group
    return (.oidc ⟨← t.id, g.id⟩, true)
  | .unmapOidc ref group => do
    let t ← s.teamOf? ref
    let g ← s.oidcGroup? group
    return (.oidc ⟨← t.id, g.id⟩, false)
  | _ => none

/-- The memberships that an API key which has been created starts with. -/
def firstEdges (s : Store) (refs : List TeamRef) : Answer → List Edge
  | .principal (.apiKey r) => refs.filterMap fun ref => do
    return .member ⟨.apiKey, r.apiKey.id, ← (← s.teamOf? ref).id⟩
  | _ => []

/-- What a command with an answer sets the presence of an edge to, if the edge is one of its own. -/
def sets? (s : Store) (answer : Answer) (e : Edge) : Command → Option Bool
  | .createApiKey _ refs => if e ∈ firstEdges s refs answer then some true else none
  | command => (command.edge? s).bind fun own => if e = own.1 then some own.2 else none

theorem sets?_createApiKey (s : Store) (answer : Answer) (e : Edge) (key : String)
    (refs : List TeamRef) : (Command.createApiKey key refs).sets? s answer e =
      if e ∈ firstEdges s refs answer then some true else none :=
  rfl

/-- What a command with an answer does to the edges: it sets the presence of its own, and if it is
about one edge, it reports whether that changes. -/
structure Effect (command : Command) (s : Store) (answer : Answer) (s' : Store) : Prop where
  has : ∀ e, s'.Has e ↔ (command.sets? s answer e).elim (s.Has e) (· = true)
  flag : command.edits = true → ∃ e added, command.edge? s = some (e, added) ∧
    answer.changed? = some (decide (s.Has e) != added)

section Effect

variable {command : Command} {s s' : Store} {answer : Answer} {e : Edge}

theorem sets?_of_edge? {added : Bool} (h : command.edge? s = some (e, added)) (e' : Edge) :
    command.sets? s answer e' = if e' = e then some added else none := by
  cases command with
  | createApiKey key refs => cases h
  | _ => exact congrArg (Option.bind · fun own => if e' = own.1 then some own.2 else none) h

/-- A command about no edge does nothing to the edges. -/
theorem Effect.of_none (hc : command.edits = false) (hk : ∀ e, command.sets? s answer e = none)
    (h : s.Gains [] s') : command.Effect s answer s' where
  has e := by simpa [hk] using h e
  flag he := by simp [hc] at he

theorem Effect.of_gains (he : command.edge? s = some (e, true)) (h : s.Gains [e] s')
    (ha : answer.changed? = some (!decide (s.Has e))) : command.Effect s answer s' where
  has e' := by
    rw [sets?_of_edge? he, h e', List.mem_singleton]
    by_cases hee : e' = e <;> simp [hee]
  flag _ := ⟨e, true, he, by simpa using ha⟩

theorem Effect.of_loses (he : command.edge? s = some (e, false)) (h : s.Loses e s')
    (ha : answer.changed? = some (decide (s.Has e))) : command.Effect s answer s' where
  has e' := by
    rw [sets?_of_edge? he, h e']
    by_cases hee : e' = e <;> simp [hee]
  flag _ := ⟨e, false, he, by simpa using ha⟩

end Effect

end Command

section Stored

variable {s : Store}

theorem TeamRef.IsStored.team {ref : TeamRef} (h : ref.IsStored) {handle : TeamHandle}
    (hf : s.teamOf? ref = some handle) : ∃ t ∈ s.teams, handle = t.handle := by
  cases ref with
  | stored name =>
    obtain ⟨t, ht, rfl⟩ := Option.map_eq_some_iff.mp hf
    exact ⟨t, List.mem_of_find?_eq_some ht, rfl⟩
  | _ => exact h.elim

theorem PrincipalRef.IsStored.record {ref : PrincipalRef} (h : ref.IsStored) {p : PrincipalHandle}
    (hf : s.principalOf? ref = some (some p)) :
    p.tracked = true ∧ ∃ r, s.record? p = some r := by
  cases ref with
  | stored kind name =>
    obtain ⟨k, -, named⟩ := Option.bind_eq_some_iff.mp hf
    obtain ⟨r, hr, he⟩ := Option.map_eq_some_iff.mp named
    obtain rfl := Option.some.inj he
    have tracked : r.handle.tracked = true := by cases r <;> rfl
    exact ⟨tracked, Store.record?_of_stored r.id_handle
      (Store.known_of_resolve? hr tracked _ r.id_handle)⟩
  | _ => exact h.elim

/-- Stored teams that are handed in one by one. -/
theorem TeamRef.stored_handles {refs : List TeamRef} (h : ∀ ref ∈ refs, ref.IsStored)
    {handles : List TeamHandle} (hf : refs.mapM s.teamOf? = some handles) :
    ∃ teams : List Team, handles = teams.map (·.handle) ∧
      refs.filterMap (fun ref => (s.teamOf? ref).bind (·.id)) = teams.map (·.id) := by
  induction refs generalizing handles with
  | nil => exact ⟨[], by simpa using hf.symm, rfl⟩
  | cons ref refs ih =>
    rw [List.mapM_cons] at hf
    obtain ⟨handle, hh, hf⟩ := Option.bind_eq_some_iff.mp hf
    obtain ⟨rest, hr, he⟩ := Option.bind_eq_some_iff.mp hf
    obtain ⟨t, -, rfl⟩ := (h ref (by simp)).team hh
    obtain ⟨teams, rfl, hids⟩ := ih (fun ref hm => h ref (by simp [hm])) hr
    refine ⟨t :: teams, (Option.some.inj he).symm, ?_⟩
    rw [List.filterMap_cons, hh, Option.bind_some, hids]
    rfl

theorem Teams.store_handles (teams : List Team) :
    (teams.map (·.handle)).mapM Teams.store = pure teams := by
  induction teams with
  | nil => rfl
  | cons t teams ih =>
    rw [List.map_cons, List.mapM_cons, ih]
    rfl

end Stored

namespace Script

variable {s : Store}

section Lookups

theorem userKind_finds (kind : PrincipalKind) :
    Finds s (Principals.userKind kind) kind.userKind? := by
  cases kind with
  | user k => exact .pure k
  | apiKey => exact ⟨_, .throw _⟩

theorem setAttribute_finds (profile : Profile) (name : String) (value : Json) :
    ∃ o, Finds s (setAttribute profile name value) o := by
  unfold setAttribute
  split
  case h_4 | h_8 => exact ⟨none, _, .throw _⟩
  all_goals exact ⟨_, .pure _⟩

theorem profile_finds (attributes : List (String × Json)) (profile : Profile) :
    ∃ o, Finds s (attributes.foldlM (fun p a => setAttribute p a.1 a.2) profile) o := by
  induction attributes generalizing profile with
  | nil => exact ⟨_, .pure _⟩
  | cons a rest ih =>
    obtain ⟨o, ho⟩ := setAttribute_finds (s := s) profile a.1 a.2
    rw [List.foldlM_cons]
    exact ⟨_, ho.bind fun p _ => (ih p).choose_spec⟩

theorem teams_finds (refs : List TeamRef) : Finds s (refs.mapM team) (refs.mapM s.teamOf?) := by
  induction refs with
  | nil => exact .pure []
  | cons ref refs ih =>
    rw [List.mapM_cons, List.mapM_cons]
    exact (team_finds ref).bind fun handle _ => ih.bind fun rest _ => .pure _

end Lookups

section Commands

/-- Where everything is committed, a command has its effect if it answers, and commits nothing if
it fails. -/
abbrev TakesEffect (s : Store) (command : Command) : Prop :=
  Spares s s (perform none command) fun answer σ => command.Effect s answer σ.current

variable {command : Command} {act : Action Answer}

/-- A draft has an effect where its rows have. -/
theorem drafted (h : Drafts s s act (command.Effect s)) :
    Spares s s act fun answer σ => command.Effect s answer σ.current :=
  Spares.imp h fun _ _ ⟨_, hs, he⟩ => hs.current ▸ he

theorem saved (h : Saves s s act (command.Effect s)) :
    Spares s s act fun answer σ => command.Effect s answer σ.current :=
  Spares.imp h fun _ _ ⟨_, hs, he⟩ => hs.current ▸ he

theorem during_moves {α : Type} {act : Action α} {a : α} {s' : Store} {notes : List Event}
    (h : Moves s act a s' notes) : Moves s (during none act) a s' notes := by
  intro keys events
  have calm : { Session.on s keys events with outage := none } = Session.on s keys events := rfl
  rw [during_apply, calm, h]
  rfl

theorem createUser_effect (kind name : String) (attributes : List (String × Json)) :
    TakesEffect s (.createUser kind name attributes) := by
  refine .find (kindOf_finds kind) fun kind _ => .find (userKind_finds kind) fun k _ => ?_
  refine .find (profile_finds attributes (blankProfile k)).choose_spec fun profile _ => drafted ?_
  refine ((Principals.createUser_drafts name profile).bind_pure _).imp ?_
  rintro _ rows' ⟨u, rfl, h⟩
  exact .of_none rfl (fun _ => rfl) (Store.addUser_gains h)

theorem firstEdges_eq {refs : List TeamRef} {teams : List Uuid}
    (h : refs.filterMap (fun ref => (s.teamOf? ref).bind (·.id)) = teams) (r : KeyRecord) :
    Command.firstEdges s refs (.principal (.apiKey r)) =
      teams.map fun t => .member ⟨.apiKey, r.apiKey.id, t⟩ := by
  rw [← h, List.map_filterMap]
  refine congrArg (refs.filterMap ·) (funext fun ref => ?_)
  rw [Option.map_bind]
  exact congrArg _ (funext fun handle => Option.map_eq_bind.symm)

theorem createApiKey_effect (key : String) {refs : List TeamRef}
    (hc : ∀ ref ∈ refs, ref.IsStored) : TakesEffect s (.createApiKey key refs) := by
  refine .find (teams_finds refs) fun handles hh => ?_
  obtain ⟨teams, rfl, hids⟩ := TeamRef.stored_handles hc hh
  rw [Teams.store_handles]
  refine drafted (((Principals.createApiKey_drafts key teams).bind_pure _).imp ?_)
  rintro _ rows' ⟨r, rfl, rfl, h⟩
  have gains := Store.addApiKey_gains h
  rw [← firstEdges_eq hids r] at gains
  refine ⟨fun e => ?_, fun he => absurd he Bool.false_ne_true⟩
  rw [gains e, Command.sets?_createApiKey]
  by_cases he : e ∈ Command.firstEdges s refs (.principal (.apiKey r)) <;> simp [he]

theorem renameTeam_effect (ref : TeamRef) (name : String) :
    TakesEffect s (.renameTeam ref name) := by
  refine .find (team_finds ref) fun t _ => drafted ?_
  cases t.id with
  | none => exact Drafts.pure (.of_none rfl (fun _ => rfl) (Store.gains_nil s))
  | some id =>
    refine ((Teams.rename_drafts id name).bind_pure _).imp ?_
    rintro _ rows' ⟨o, rfl, rfl | h⟩
    · exact .of_none rfl (fun _ => rfl) (Store.gains_nil rows')
    · exact .of_none rfl (fun _ => rfl) (Store.renameTeam_gains h)

theorem regenerateApiKey_effect (ref : PrincipalRef) (key : String) :
    TakesEffect s (.regenerateApiKey ref key) := by
  refine .find (principal_finds ref) fun p _ => drafted ?_
  cases p.kind with
  | apiKey =>
    refine ((Principals.regenerateApiKey_drafts p key).bind_pure _).imp ?_
    rintro _ rows' ⟨r, rfl, id, h⟩
    exact .of_none rfl (fun _ => rfl) (Store.replaceApiKey_gains h)
  | user k =>
    exact .find (Principals.lock_finds p) fun r _ =>
      Drafts.pure (.of_none rfl (fun _ => rfl) (Store.gains_nil s))

section Teams

variable {ref : TeamRef} (hc : ref.IsStored)

include hc

theorem mapLdap_effect (dn : String) : TakesEffect s (.mapLdap ref dn) := by
  refine .find (team_finds ref) fun handle hf => drafted ?_
  obtain ⟨t, -, rfl⟩ := hc.team hf
  refine (Groups.mapLdap_drafts t dn).bind fun created rows' h => ?_
  obtain ⟨rfl, rfl⟩ := h
  refine .read (Groups.dnsForTeam_reads t.handle) (Drafts.pure ?_)
  have own : (Command.mapLdap ref dn).edge? s = some (.ldap ⟨t.id, dn⟩, true) :=
    Option.bind_eq_some_iff.mpr ⟨_, hf, rfl⟩
  exact .of_gains own (Store.mapLdap_gains s t.id dn) rfl

theorem unmapLdap_effect (dn : String) : TakesEffect s (.unmapLdap ref dn) := by
  refine .find (team_finds ref) fun handle hf => drafted ?_
  obtain ⟨t, -, rfl⟩ := hc.team hf
  refine ((Groups.unmapLdap_drafts t dn).bind_pure _).imp ?_
  rintro _ rows' ⟨b, rfl, rfl, rfl⟩
  have own : (Command.unmapLdap ref dn).edge? s = some (.ldap ⟨t.id, dn⟩, false) :=
    Option.bind_eq_some_iff.mpr ⟨_, hf, rfl⟩
  exact .of_loses own (Store.unmapLdap_loses s t.id dn) rfl

theorem mapOidc_effect (group : String) : TakesEffect s (.mapOidc ref group) := by
  refine .find (team_finds ref) fun handle hf => ?_
  obtain ⟨t, -, rfl⟩ := hc.team hf
  refine .find (oidcGroup_finds group) fun g hg => drafted ?_
  refine (Groups.mapOidc_drafts t g).bind fun created rows' h => ?_
  obtain ⟨rfl, rfl⟩ := h
  refine .read (Groups.namesForTeam_reads t.handle) (Drafts.pure ?_)
  have own : (Command.mapOidc ref group).edge? s = some (.oidc ⟨t.id, g.id⟩, true) :=
    Option.bind_eq_some_iff.mpr ⟨_, hf, Option.bind_eq_some_iff.mpr ⟨_, hg, rfl⟩⟩
  exact .of_gains own (Store.mapOidc_gains s t.id g.id) rfl

theorem unmapOidc_effect (group : String) : TakesEffect s (.unmapOidc ref group) := by
  refine .find (team_finds ref) fun handle hf => ?_
  obtain ⟨t, -, rfl⟩ := hc.team hf
  refine .find (oidcGroup_finds group) fun g hg => drafted ?_
  refine ((Groups.unmapOidc_drafts t g).bind_pure _).imp ?_
  rintro _ rows' ⟨b, rfl, rfl, rfl⟩
  have own : (Command.unmapOidc ref group).edge? s = some (.oidc ⟨t.id, g.id⟩, false) :=
    Option.bind_eq_some_iff.mpr ⟨_, hf, Option.bind_eq_some_iff.mpr ⟨_, hg, rfl⟩⟩
  exact .of_loses own (Store.unmapOidc_loses s t.id g.id) rfl

theorem grantTeam_effect (name : String) : TakesEffect s (.grantTeam ref name) := by
  refine .find (team_finds ref) fun handle hf => ?_
  obtain ⟨t, -, rfl⟩ := hc.team hf
  refine .find (permission_finds name) fun q hq => drafted ?_
  refine ((Permissions.grantToTeam_drafts t q).bind_pure _).imp ?_
  rintro _ rows' ⟨b, rfl, rfl, rfl⟩
  have own : (Command.grantTeam ref name).edge? s = some (.teamGrant ⟨t.id, q.id⟩, true) :=
    Option.bind_eq_some_iff.mpr ⟨_, hf, Option.bind_eq_some_iff.mpr ⟨_, hq, rfl⟩⟩
  exact .of_gains own (Store.grantTeam_gains s ⟨t.id, q.id⟩) rfl

theorem revokeTeam_effect (name : String) : TakesEffect s (.revokeTeam ref name) := by
  refine .find (team_finds ref) fun handle hf => ?_
  obtain ⟨t, -, rfl⟩ := hc.team hf
  refine .find (permission_finds name) fun q hq => drafted ?_
  refine ((Permissions.revokeFromTeam_drafts t q).bind_pure _).imp ?_
  rintro _ rows' ⟨b, rfl, rfl, rfl⟩
  have own : (Command.revokeTeam ref name).edge? s = some (.teamGrant ⟨t.id, q.id⟩, false) :=
    Option.bind_eq_some_iff.mpr ⟨_, hf, Option.bind_eq_some_iff.mpr ⟨_, hq, rfl⟩⟩
  exact .of_loses own (Store.revokeTeam_loses s ⟨t.id, q.id⟩) rfl

end Teams

section Principals

variable {ref : PrincipalRef} (hp : ref.IsStored)

include hp

theorem grantUser_effect (name : String) : TakesEffect s (.grantUser ref name) := by
  refine .find (principal?_finds ref) fun o ho => ?_
  refine .find (permission_finds name) fun q hq => ?_
  refine .find (subject_finds "permissions" o) fun p hs => drafted ?_
  obtain rfl := Option.mem_def.mp hs
  obtain ⟨tracked, r, hr⟩ := hp.record ho
  refine ((Permissions.grantToUser_drafts (Store.id_of_record? hr) tracked q).bind_pure _).imp ?_
  rintro _ rows' ⟨b, rfl, k, hk, rfl, rfl⟩
  have own : (Command.grantUser ref name).edge? s = some (.userGrant ⟨k, r.id, q.id⟩, true) := by
    refine Option.bind_eq_some_iff.mpr ⟨p, Option.join_eq_some_iff.mpr ho, ?_⟩
    refine Option.bind_eq_some_iff.mpr ⟨q, hq, ?_⟩
    simp [hk, Store.id_of_record? hr, PrincipalKind.userKind?]
  exact .of_gains own (Store.grantUser_gains s ⟨k, r.id, q.id⟩) rfl

variable {teamRef : TeamRef} (hc : teamRef.IsStored)

include hc

theorem addMember_effect (hm : s.missing = []) : TakesEffect s (.addMember ref teamRef) := by
  refine .find (principal?_finds ref) fun o ho => ?_
  refine .find (team_finds teamRef) fun handle hf => ?_
  refine .find (subject_finds "identifier" o) fun p hs => saved ?_
  obtain rfl := Option.mem_def.mp hs
  obtain ⟨-, r, hr⟩ := hp.record ho
  obtain ⟨t, ht, rfl⟩ := hc.team hf
  obtain ⟨t', hf', hid⟩ := Store.teamById?_of_mem ht
  refine Saves.moves (during_moves (MembershipService.add_moves hm hr hf')) (Closes.pure ?_)
  have own : (Command.addMember ref teamRef).edge? s =
      some (.member ⟨r.kind, r.id, t'.id⟩, true) := by
    refine Option.bind_eq_some_iff.mpr ⟨p, Option.join_eq_some_iff.mpr ho, ?_⟩
    refine Option.bind_eq_some_iff.mpr ⟨t.handle, hf, ?_⟩
    simp [Store.kind_of_record? hr, Store.id_of_record? hr, Team.handle, hid]
  exact .of_gains own (Store.join_gains s ⟨r.kind, r.id, t'.id⟩) rfl

theorem removeMember_effect (hm : s.missing = []) : TakesEffect s (.removeMember ref teamRef) := by
  refine .find (principal?_finds ref) fun o ho => ?_
  refine .find (team_finds teamRef) fun handle hf => ?_
  refine .find (subject_finds "identifier" o) fun p hs => saved ?_
  obtain rfl := Option.mem_def.mp hs
  obtain ⟨-, r, hr⟩ := hp.record ho
  obtain ⟨t, ht, rfl⟩ := hc.team hf
  refine Saves.moves (during_moves (MembershipService.remove_moves hm hr rfl ht)) (Closes.pure ?_)
  have own : (Command.removeMember ref teamRef).edge? s =
      some (.member ⟨r.kind, r.id, t.id⟩, false) := by
    refine Option.bind_eq_some_iff.mpr ⟨p, Option.join_eq_some_iff.mpr ho, ?_⟩
    refine Option.bind_eq_some_iff.mpr ⟨t.handle, hf, ?_⟩
    simp [Store.kind_of_record? hr, Store.id_of_record? hr, Team.handle]
  exact .of_loses own (Store.leave_loses s ⟨r.kind, r.id, t.id⟩) rfl

end Principals

/-- Every plain command takes effect. -/
theorem perform_effect (hm : s.missing = []) {command : Command} (hc : command.IsPlain) :
    TakesEffect s command := by
  cases command with
  | createPermission name description =>
    refine drafted (((Permissions.create_drafts name description).bind_pure _).imp ?_)
    rintro _ rows' ⟨q, rfl, h⟩
    exact .of_none rfl (fun _ => rfl) (Store.addPermission_gains h)
  | createTeam name =>
    refine drafted (((Teams.create_drafts name).bind_pure _).imp ?_)
    rintro _ rows' ⟨t, rfl, h⟩
    exact .of_none rfl (fun _ => rfl) (Store.addTeam_gains h)
  | createOidcGroup name =>
    refine drafted (((Groups.create_drafts name).bind_pure _).imp ?_)
    rintro _ rows' ⟨g, rfl, h⟩
    exact .of_none rfl (fun _ => rfl) (Store.addOidcGroup_gains h)
  | createUser kind name attributes => exact createUser_effect kind name attributes
  | createApiKey key refs => exact createApiKey_effect key hc
  | renameTeam ref name => exact renameTeam_effect ref name
  | regenerateApiKey ref key => exact regenerateApiKey_effect ref key
  | mapLdap ref dn => exact mapLdap_effect hc dn
  | mapOidc ref group => exact mapOidc_effect hc group
  | unmapLdap ref dn => exact unmapLdap_effect hc dn
  | unmapOidc ref group => exact unmapOidc_effect hc group
  | grantTeam ref name => exact grantTeam_effect hc name
  | revokeTeam ref name => exact revokeTeam_effect hc name
  | grantUser ref name => exact grantUser_effect hc name
  | addMember ref teamRef => exact addMember_effect hc.1 hc.2 hm
  | removeMember ref teamRef => exact removeMember_effect hc.1 hc.2 hm
  | bootstrap | dropTable | sync => exact hc.elim
  | _ =>
    refine .imp (.of_keeps (perform_keeps_of_reads (fun _ _ => trivial) (by simp) rfl)) ?_
    rintro answer σ ⟨-, hσ⟩
    rw [hσ]
    exact .of_none rfl (fun _ => rfl) (Store.gains_nil s)

end Commands

end Script

end TeamAccess
