import TeamAccess.Proofs.Http.Bearer
import TeamAccess.Proofs.Http.Ending
import TeamAccess.Proofs.Integrity

/-! # Creating and renaming

Before something is created or renamed, its name is looked up, in the same partition in which the
table requires it to be unique. So no such request runs into a row that is there: it is refused if
the name is taken, and otherwise adds or changes one entity.
-/

namespace TeamAccess.Http

open TeamAccess.Action

variable {st : Store} {keys : KeySupply} {events : List Event} {name key : String}

namespace Call

/-- A call creates a permission, a team, a provider group or a user. -/
def Creates : Call → Prop
  | .createPermission .. | .createTeam .. | .createOidcGroup _ | .createUser (.user _) .. => True
  | _ => False

/-- What a call creates has a name that is taken. -/
def Taken (st : Store) : Call → Prop
  | .createPermission name _ => ∃ p ∈ st.permissions, p.name = name
  | .createTeam name _ => ∃ t ∈ st.teams, t.name = name
  | .createOidcGroup name => ∃ g ∈ st.oidcGroups, g.name = name
  | .createUser (.user kind) username .. => ∃ u ∈ st.users, u.kind = kind ∧ u.username = username
  | _ => False

/-- A call adds one entity, under an identifier that no row held, and to a team that is asked with a
key one API key that is a member of it. -/
def Adds (st : Store) (key : String) : Call → Store → Prop
  | .createPermission name description, st' => ∃ id ∉ st.usedIds,
      st' = { st with permissions := st.permissions ++ [⟨id, name, description⟩] }
  | .createTeam name false, st' => ∃ id ∉ st.usedIds,
      st' = { st with teams := st.teams ++ [⟨id, name⟩] }
  | .createTeam name true, st' => ∃ id ∉ st.usedIds, ∃ keyId ∉ st.usedIds, keyId ≠ id ∧
      st' = { st with
        teams := st.teams ++ [⟨id, name⟩]
        apiKeys := st.apiKeys ++ [⟨keyId, key⟩]
        memberships := st.memberships ++ [⟨.apiKey, keyId, id⟩] } ∧
      st'.teamsOf .apiKey keyId = [⟨id, name⟩]
  | .createOidcGroup name, st' => ∃ id ∉ st.usedIds,
      st' = { st with oidcGroups := st.oidcGroups ++ [⟨id, name⟩] }
  | .createUser (.user kind) username fullname email dn subject, st' => ∃ id ∉ st.usedIds,
      st' = { st with users := st.users ++
        [⟨id, username, profileOf fullname email dn subject kind⟩] }
  | _, _ => False

theorem profileOf_kind (fullname email dn subject : Option String) (kind : UserKind) :
    (profileOf fullname email dn subject kind).kind = kind := by
  cases kind <;> rfl

section

variable (hm : st.missing = [])

include hm

theorem createPermission_ends (hn : st.permission? name = none) (description : Option String)
    (settings : Settings) (now : Int) (caller : Option PrincipalRecord) :
    Ends (answer settings now caller (.createPermission name description))
      (Session.on st keys events) 201
      { st with permissions := st.permissions ++ [⟨st.freshId, name, description⟩] } := by
  refine .absent hm (Permissions.find?_reads name) hn ?_
  exact .write (Permissions.create_writes hm hn description) rfl rfl
    (.commit rfl (.record (.answered _ _)))

theorem createOidcGroup_ends (hn : st.oidcGroup? name = none) (settings : Settings) (now : Int)
    (caller : Option PrincipalRecord) :
    Ends (answer settings now caller (.createOidcGroup name)) (Session.on st keys events) 201
      { st with oidcGroups := st.oidcGroups ++ [⟨st.freshId, name⟩] } := by
  refine .absent hm (Groups.find?_reads name) hn ?_
  exact .write (Groups.create_writes hm hn) rfl rfl (.commit rfl (.answered _ _))

theorem makeUser_ends {kind : UserKind} (hn : st.user? kind name = none)
    {profile : UserKind → Profile} (hk : (profile kind).kind = kind) :
    Ends (makeUser (.user kind) name profile) (Session.on st keys events) 201
      { st with users := st.users ++ [⟨st.freshId, name, profile kind⟩] } := by
  have there : (st.user? kind name).map st.userRecord = none := by rw [hn]; rfl
  refine .absent hm ⟨_, Principals.findUser?_traces kind name⟩ there ?_
  rw [← hk] at hn
  exact .write (Principals.createUser_writes hm hn) rfl rfl
    (.commit rfl (.record (.answered _ _)))

theorem makeTeam_ends (hn : st.team? name = none) :
    Ends (makeTeam name false) (Session.on st keys events) 201
      { st with teams := st.teams ++ [⟨st.freshId, name⟩] } := by
  have there : (st.team? name).map st.teamRecord = none := by rw [hn]; rfl
  refine .absent hm (Teams.find?_reads name) there ?_
  exact .write (Teams.create_writes hm hn) rfl rfl
    (.bind rfl (.commit rfl (.record (.answered _ _))))

/-- A team that is asked with a key gets one with the text that comes up next. -/
theorem makeTeam_ends_keyed (hn : st.team? name = none) (hk : st.apiKey? keys.next.1 = none) :
    ∃ id, id ∉ st.usedIds ∧ id ≠ st.freshId ∧
      Ends (makeTeam name true) (Session.on st keys events) 201
        { st with
          teams := st.teams ++ [⟨st.freshId, name⟩]
          apiKeys := st.apiKeys ++ [⟨id, keys.next.1⟩]
          memberships := st.memberships ++ [⟨.apiKey, id, st.freshId⟩] } := by
  let t : Team := ⟨st.freshId, name⟩
  let rows : Store := { st with teams := st.teams ++ [t] }
  have fresh : rows.freshId ∉ st.usedIds ∧ rows.freshId ≠ t.id := by
    rw [← not_or]
    refine mt (fun hu => ?_) rows.freshId_not_mem
    simp only [rows, Store.usedIds, List.map_append, List.mem_append, List.map_cons, List.map_nil,
      List.mem_singleton] at hu ⊢
    tauto
  refine ⟨rows.freshId, fresh.1, fresh.2, ?_⟩
  have there : (st.team? name).map st.teamRecord = none := by rw [hn]; rfl
  refine .absent hm (Teams.find?_reads name) there ?_
  refine .write (Teams.create_writes hm hn) rfl rfl ?_
  refine .bind rfl (.write (@Principals.createApiKey_writes rows hm _ hk t) rfl rfl ?_)
  exact .bind rfl (.commit rfl (.record (.answered _ _)))

end

/-- A new API key is a member of the team that it is made for and of no other. -/
theorem teamsOf_keyed {id keyId : Uuid} (hi : id ∉ st.usedIds) (hk : keyId ∉ st.usedIds) :
    Store.teamsOf { st with
      teams := st.teams ++ [⟨id, name⟩]
      apiKeys := st.apiKeys ++ [⟨keyId, key⟩]
      memberships := st.memberships ++ [⟨.apiKey, keyId, id⟩] } .apiKey keyId = [⟨id, name⟩] := by
  have others : ∀ t ∈ st.teams, ⟨.apiKey, keyId, t.id⟩ ∉
      st.memberships ++ [⟨.apiKey, keyId, id⟩] := by
    intro t ht he
    rcases List.mem_append.mp he with he | he
    · have hm : keyId ∈ st.memberships.map (·.principal) := List.mem_map.mpr ⟨_, he, rfl⟩
      exact hk (by simp [Store.usedIds, hm])
    · have hm : id ∈ st.teams.map (·.id) :=
        List.mem_map.mpr ⟨t, ht, congrArg Membership.team (List.mem_singleton.mp he)⟩
      exact hi (by simp [Store.usedIds, hm])
  have none : st.teams.filter (fun t => ⟨.apiKey, keyId, t.id⟩ ∈
      st.memberships ++ [⟨.apiKey, keyId, id⟩]) = [] :=
    List.filter_eq_nil_iff.mpr fun t ht => by simpa using others t ht
  simp only [Store.teamsOf, List.filter_append, none]
  simp [sortedBy]

section Rename

variable {id : Uuid}

/-- The look at the new name finds the other team that has it. -/
theorem clash_ne_none_iff (hd : st.Distinct) :
    ((st.team? name).map st.teamRecord).filter (·.team.id ≠ id) ≠ none ↔
      ∃ t ∈ st.teams, t.name = name ∧ t.id ≠ id := by
  have one (t : Team) : st.team? name = some t ↔ t ∈ st.teams ∧ t.name = name :=
    Store.find?_key_eq_some_iff hd.teamNames
  simp only [ne_eq, Option.filter_eq_none_iff, Option.map_eq_some_iff, one]
  constructor
  · intro h
    by_contra hn
    refine h ?_
    rintro _ ⟨t, ⟨ht, he⟩, rfl⟩ hi
    exact hn ⟨t, ht, he, of_decide_eq_true hi⟩
  · rintro ⟨t, ht, he, hi⟩ h
    exact h _ ⟨t, ⟨ht, he⟩, rfl⟩ (decide_eq_true hi)

variable (hm : st.missing = []) (hd : st.Distinct)

include hm hd

theorem changeTeamName_ends_taken (h : ∃ t ∈ st.teams, t.name = name ∧ t.id ≠ id) :
    Ends (changeTeamName id name) (Session.on st keys events) 409 st :=
  .read hm (Teams.find?_reads name) (.clash ((clash_ne_none_iff hd).mpr h))

variable (hf : ¬ ∃ t ∈ st.teams, t.name = name ∧ t.id ≠ id)

include hf

theorem changeTeamName_ends_unknown (hi : st.teamById? id = none) :
    Ends (changeTeamName id name) (Session.on st keys events) 404 st := by
  have free := not_not.mp (mt (clash_ne_none_iff hd).mp hf)
  refine .read hm (Teams.find?_reads name) (.clear free ?_)
  exact .read hm (Teams.rename_reads hi) (.refused 404 _ _)

theorem changeTeamName_ends {t : Team} (hi : st.teamById? id = some t) :
    Ends (changeTeamName id name) (Session.on st keys events) 200
      { st with teams := st.teams.map fun t => if t.id = id then ⟨id, name⟩ else t } := by
  have free := not_not.mp (mt (clash_ne_none_iff hd).mp hf)
  refine .read hm (Teams.find?_reads name) (.clear free ?_)
  have own : ∀ t ∈ st.teams, t.name = name → t.id = id := by
    intro t ht hn
    by_contra hne
    exact hf ⟨t, ht, hn, hne⟩
  exact .write (Teams.rename_writes hm hi own) rfl rfl (.commit rfl (.answered _ _))

end Rename

variable {call : Call} {settings : Settings} {now : Int} {caller : Option PrincipalRecord}

theorem ends_of_taken (hm : st.missing = []) (h : call.Taken st) :
    Ends (answer settings now caller call) (Session.on st keys events) 409 st := by
  cases call with
  | createPermission name description =>
    exact .found hm (Permissions.find?_reads name) (by simpa [Store.permission?, Taken] using h)
  | createTeam name withApiKey =>
    exact .found hm (Teams.find?_reads name) (by simpa [Store.team?, Taken] using h)
  | createOidcGroup name =>
    exact .found hm (Groups.find?_reads name) (by simpa [Store.oidcGroup?, Taken] using h)
  | createUser kind username =>
    cases kind with
    | user kind =>
      exact .found hm ⟨_, Principals.findUser?_traces kind username⟩
        (by simpa [Store.user?, Taken] using h)
    | apiKey => exact h.elim
  | _ => exact h.elim

theorem ends_of_free (hm : st.missing = []) (hc : call.Creates) (hf : ¬ call.Taken st)
    (hk : st.apiKey? keys.next.1 = none) :
    ∃ st', call.Adds st keys.next.1 st' ∧ ∀ settings now caller,
      Ends (answer settings now caller call) (Session.on st keys events) 201 st' := by
  have fresh := st.freshId_not_mem
  cases call with
  | createPermission name description =>
    have hn : st.permission? name = none := by simpa [Store.permission?, Taken] using hf
    exact ⟨_, ⟨_, fresh, rfl⟩, createPermission_ends hm hn description⟩
  | createTeam name withApiKey =>
    have hn : st.team? name = none := by simpa [Store.team?, Taken] using hf
    cases withApiKey with
    | false => exact ⟨_, ⟨_, fresh, rfl⟩, fun _ _ _ => makeTeam_ends hm hn⟩
    | true =>
      obtain ⟨id, hi, hne, h⟩ := makeTeam_ends_keyed hm hn hk
      exact ⟨_, ⟨_, fresh, _, hi, hne, rfl, teamsOf_keyed fresh hi⟩, fun _ _ _ => h⟩
  | createOidcGroup name =>
    have hn : st.oidcGroup? name = none := by simpa [Store.oidcGroup?, Taken] using hf
    exact ⟨_, ⟨_, fresh, rfl⟩, createOidcGroup_ends hm hn⟩
  | createUser kind username fullname email dn subject =>
    cases kind with
    | user kind =>
      have hn : st.user? kind username = none := by simpa [Store.user?, Taken] using hf
      exact ⟨_, ⟨_, fresh, rfl⟩, fun _ _ _ => makeUser_ends hm hn (profileOf_kind ..)⟩
    | apiKey => exact hc.elim
  | _ => exact hc.elim

end Call

namespace Server

variable {server : Server} {request : Request} {endpoint : Endpoint} {parameters : Parameters}
  {payload : Payload} {call : Call} {ref : CallerRef}

/-- On every store that is served, what a caller that may administer creates is added, one entity
and with a team that is asked with a key one API key of it, or its name is taken and it is refused;
a team is renamed, and nothing else changes, unless another team has the name or it is not there.
No such request ends in a failure. -/
theorem creation_meets_no_duplicate (hs : Served server.store)
    (hr : request.ForAdministration endpoint parameters) (hp : request.Carries endpoint payload)
    (hc : Call.ofRequest endpoint parameters request payload = .ok call)
    (hn : Gate.Names server.settings request ref)
    (hg : server.store.GrantedTo Bootstrap.accessManagement ref)
    (hk : ∀ k ∈ server.store.apiKeys, k.key ≠ server.keys.next.1) :
    let exchange := (server.handle none request).1
    let store := (server.handle none request).2.store
    (call.Creates → exchange.crash = none ∧
      (call.Taken server.store → exchange.response.status = 409 ∧ store = server.store) ∧
      (¬ call.Taken server.store →
        exchange.response.status = 201 ∧ call.Adds server.store server.keys.next.1 store)) ∧
    ∀ id name, call = .renameTeam id name → exchange.crash = none ∧
      ((∃ t ∈ server.store.teams, t.name = name ∧ t.id ≠ id) →
        exchange.response.status = 409 ∧ store = server.store) ∧
      ((¬ ∃ t ∈ server.store.teams, t.name = name ∧ t.id ≠ id) →
        (¬ server.store.HasTeam id → exchange.response.status = 404 ∧ store = server.store) ∧
        (server.store.HasTeam id → exchange.response.status = 200 ∧
          store = { server.store with
            teams := server.store.teams.map fun t => if t.id = id then ⟨id, name⟩ else t })) := by
  intro exchange store
  have hm : server.store.missing = [] :=
    hs.within (Store.closed_missing []) rfl fun _ _ => rfl
  have hd := hs.distinct
  have ends {status : Nat} {st' : Store} (h : ∀ caller,
      Ends (call.answer server.settings request.now caller) server.session status st') :=
    handle_ends hm hd hr hp hc hn hg h
  have free : server.store.apiKey? server.keys.next.1 = none :=
    List.find?_eq_none.mpr fun k hmem he => hk k hmem (of_decide_eq_true he)
  refine ⟨fun hcr => ?_, ?_⟩
  · by_cases ht : call.Taken server.store
    · obtain ⟨status, crash, rows⟩ := ends fun caller => Call.ends_of_taken hm ht
      exact ⟨crash, fun _ => ⟨status, rows⟩, fun hf => absurd ht hf⟩
    · obtain ⟨st', adds, answers⟩ := Call.ends_of_free hm hcr ht free
      obtain ⟨status, crash, rfl⟩ := ends (answers _ _)
      exact ⟨crash, fun h => absurd h ht, fun _ => ⟨status, adds⟩⟩
  · rintro id name rfl
    by_cases ht : ∃ t ∈ server.store.teams, t.name = name ∧ t.id ≠ id
    · obtain ⟨status, crash, rows⟩ := ends fun _ => Call.changeTeamName_ends_taken hm hd ht
      exact ⟨crash, fun _ => ⟨status, rows⟩, fun hf => absurd ht hf⟩
    · cases hi : server.store.teamById? id with
      | none =>
        obtain ⟨status, crash, rows⟩ := ends fun _ => Call.changeTeamName_ends_unknown hm hd ht hi
        refine ⟨crash, fun h => absurd h ht, fun _ => ⟨fun _ => ⟨status, rows⟩, ?_⟩⟩
        rintro ⟨t, hmem, rfl⟩
        obtain ⟨t', ht', -⟩ := Store.teamById?_of_mem hmem
        cases hi.symm.trans ht'
      | some t =>
        obtain ⟨status, crash, rows⟩ := ends fun _ => Call.changeTeamName_ends hm hd ht hi
        have stored : server.store.HasTeam id := ⟨t, hd.teamById?_eq_some_iff.mp hi⟩
        exact ⟨crash, fun h => absurd h ht, fun _ => ⟨fun h => absurd stored h, fun _ =>
          ⟨status, rows⟩⟩⟩

/-- The administrator that a server has started with sends a token and creates a team together with
an API key. -/
theorem creation_meets_no_duplicate_keyed :
    let settings : Settings := {}
    let body := "\x7b\"name\":\"ops\",\"create_api_key\":true\x7d".toUTF8.toList
    let request (token : String) : Request := ⟨"POST", "/v1/admin/teams",
      [("Content-Type", "application/json"), ("Authorization", "Bearer " ++ token)], body, 0, "r"⟩
    let server : Server := ⟨settings, Sample.rootStore, {}⟩
    Served Sample.rootStore ∧ ∃ token,
      Token.issue settings.tokenConfig "root" (.user .managed) 0 Token.second = .ok token ∧
      (request token).ForAdministration .createTeam [] ∧
      Gate.Names settings (request token) ⟨.user .managed, "root"⟩ ∧
      Sample.rootStore.GrantedTo Bootstrap.accessManagement ⟨.user .managed, "root"⟩ ∧
      (∀ k ∈ Sample.rootStore.apiKeys, k.key ≠ server.keys.next.1) ∧
      (server.handle none (request token)).1.response.status = 201 ∧ ∃ team key,
        (server.handle none (request token)).2.store.teamsOf .apiKey key = [⟨team, "ops"⟩] := by
  intro settings body request server
  have usable : settings.tokenConfig.Usable := Token.usable_default
  obtain ⟨token, issued, -⟩ := @Token.issue_signed settings.tokenConfig "root" .managed 0
    Token.second usable (by decide) (by decide)
  have typed : ("Content-Type".map Char.toLower = "authorization") = False ∧
      ("Content-Type".map Char.toLower = "x-api-key") = False ∧
      ("Authorization".map Char.toLower = "authorization") = True ∧
      ("Authorization".map Char.toLower = "x-api-key") = False ∧
      ("Content-Type".map Char.toLower = "content-type") = True := by decide +kernel
  have current : Token.wholeSeconds 0 * Token.second ≤ 0 ∧
      0 < Token.wholeSeconds (0 + Token.second) * Token.second := by decide
  have named : Gate.Names settings (request token) ⟨.user .managed, "root"⟩ :=
    Gate.names_of_issued usable (by decide) issued (by decide)
      (by simp [request, Request.header?, typed])
      (by simp [request, Request.apiKey?, Request.header?, typed]) current
  have route : (request token).ForAdministration .createTeam [] :=
    ⟨(by decide +kernel : Route.target "POST" (request "").path = .endpoint .createTeam []),
      ⟨"POST", Route.admin [.fixed "teams"], .createTeam⟩, by decide, rfl, rfl⟩
  have granted : Sample.rootStore.GrantedTo Bootstrap.accessManagement ⟨.user .managed, "root"⟩ :=
    ⟨⟨Sample.id 1, "root", .managed none none false⟩, by decide, rfl, rfl, .inl
      ⟨⟨Sample.id 0, Bootstrap.accessManagement, some Bootstrap.description⟩, by decide, rfl,
        by decide⟩⟩
  have same : readPayload (request token) = readPayload (request "") := by
    simp [readPayload, request, Request.declaresJson, Request.header?, typed]
  have parsed : (match readPayload (request "") with
      | .ok payload => decide (Call.ofRequest .createTeam [] (request "") payload =
          .ok (.createTeam "ops" true))
      | .error _ => false) = true := by decide +kernel
  refine ⟨Sample.rootStore_served, token, issued, route, named, granted, nofun, ?_⟩
  cases hp : readPayload (request "") with
  | error reply => simp [hp] at parsed
  | ok payload =>
    rw [hp] at parsed
    have creates : Call.Creates (.createTeam "ops" true) := trivial
    have untaken : ¬ Call.Taken Sample.rootStore (.createTeam "ops" true) := nofun
    obtain ⟨created, -⟩ := @creation_meets_no_duplicate server (request token) _ _ payload _ _
      Sample.rootStore_served route (same.trans hp) (of_decide_eq_true parsed) named granted nofun
    obtain ⟨-, -, added⟩ := created creates
    obtain ⟨status, team, -, key, -, -, -, only⟩ := added untaken
    exact ⟨status, team, key, only⟩

end Server

end TeamAccess.Http
