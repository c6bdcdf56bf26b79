import TeamAccess.Proofs.Http.Gate

/-! # Requests to the administration

A request to a route of the administration is served by its endpoint if and only if its caller is
granted the permission to administer. Behind the gate no request is refused with 401 or 403.
-/

namespace TeamAccess.Http

open TeamAccess.Action

/-- Whether a route belongs to the administration. -/
def Route.isAdmin (r : Route) : Bool := [.fixed "v1", .fixed "admin"].isPrefixOf r.parts

theorem Route.access_of_isAdmin :
    ∀ r ∈ all, r.isAdmin = true → r.endpoint.access = .administrator := by
  decide

/-- A request matches a route of the administration. -/
structure Request.ForAdministration (request : Request) (endpoint : Endpoint)
    (parameters : Parameters) : Prop where
  target : Route.target request.method request.path = .endpoint endpoint parameters
  route : ∃ r ∈ Route.all, r.isAdmin = true ∧ r.endpoint = endpoint

theorem Request.ForAdministration.access {request : Request} {endpoint : Endpoint}
    {parameters : Parameters} (h : request.ForAdministration endpoint parameters) :
    endpoint.access = .administrator := by
  obtain ⟨r, hr, ha, rfl⟩ := h.route
  exact Route.access_of_isAdmin r hr ha

/-- A status that the gate refuses with. -/
def Gate.Refuses (status : Nat) : Prop := status = 401 ∨ status = 403

/-- What an endpoint reads of the body of a request can be read. -/
def Request.Carries (request : Request) (endpoint : Endpoint) (payload : Payload) : Prop :=
  (if endpoint.takesBody then Server.readPayload request else .ok .absent) = .ok payload

namespace Server

variable {server : Server} {settings : Settings} {request : Request} {endpoint : Endpoint}
  {parameters : Parameters} {payload : Payload}

/-- The session that a request is served in when nothing fails. -/
def session (server : Server) : Session :=
  { Session.start server.store with keys := server.keys }

/-- Serves a request behind the gate: its parameters are checked, then the endpoint answers. -/
def proceed (settings : Settings) (request : Request) (endpoint : Endpoint)
    (parameters : Parameters) (payload : Payload) (caller : Option PrincipalRecord) :
    Action Reply :=
  match Call.ofRequest endpoint parameters request payload with
  | .error complaints => return complain complaints
  | .ok call => call.answer settings request.now caller

theorem serve_administrator (ha : endpoint.access = .administrator)
    (hp : request.Carries endpoint payload) :
    serve settings request endpoint parameters =
      Gate.requireAdministrator settings request >>= fun record =>
        proceed settings request endpoint parameters payload (some record) := by
  unfold serve
  rw [hp, ha]
  simp only [Gate.pass, bind_assoc, pure_bind]
  rfl

/-- Behind the gate no answer and no refusal has a status of the gate. -/
theorem proceed_yields (record : PrincipalRecord) :
    Yields (fun _ => True)
      (fun f => ∀ status detail, f = .refused status detail → ¬ Gate.Refuses status)
      (fun reply => ¬ Gate.Refuses reply.status)
      (proceed settings request endpoint parameters payload (some record)) := by
  unfold proceed
  split
  · exact Yields.pure (by simp [complain, Gate.Refuses])
  · rename_i call _
    refine Ensures.consequence (Call.answer_yields ⟨Store.closed_true, ?_⟩ ?_ settings request.now
      nofun call) (fun _ => id) ?_ fun _ _ => id
    · rintro f hf status detail rfl
      cases hf
    · rintro status detail hm status' detail' he
      cases he
      rcases hm with _ | ⟨_, _ | ⟨_, _ | ⟨_, ⟨⟩⟩⟩⟩ <;> simp [Gate.Refuses]
    · rintro reply σ ⟨hw, ok | created⟩
      · exact ⟨hw, by simp [Gate.Refuses, ok]⟩
      · exact ⟨hw, by simp [Gate.Refuses, created]⟩

theorem handle_of_ok {reply : Reply} {s : Session}
    (ht : Route.target request.method request.path = .endpoint endpoint parameters)
    (h : serve server.settings request endpoint parameters server.session = .ok reply s) :
    server.handle none request = (conclude request (.ok reply) s.events,
      { server with store := s.durable, keys := s.keys }) := by
  unfold session at h
  simp only [handle, ht, handleEndpoint, h]

theorem handle_of_error {f : Failure} {s : Session}
    (ht : Route.target request.method request.path = .endpoint endpoint parameters)
    (h : serve server.settings request endpoint parameters server.session = .error f s) :
    server.handle none request = (conclude request (.error f) s.events,
      { server with store := s.durable, keys := s.keys }) := by
  unfold session at h
  simp only [handle, ht, handleEndpoint, h]

section Handle

variable (hr : request.ForAdministration endpoint parameters)

include hr

/-- A request that the gate refuses is answered with the refusal and changes nothing. -/
theorem handle_refused {status : Nat} {detail : String} {s : Session}
    (hd : s.durable = server.store) (hk : s.keys = server.keys)
    (h : serve server.settings request endpoint parameters server.session =
      .error (.refused status detail) s) :
    (server.handle none request).1.response.status = status ∧
      (server.handle none request).2 = server := by
  rw [handle_of_error hr.target h, hd, hk]
  exact ⟨rfl, rfl⟩

/-- A request that gets past the gate is not answered with a status of the gate. -/
theorem handle_passed {record : PrincipalRecord} {s : Session} (hs : s.outage = none)
    (h : serve server.settings request endpoint parameters server.session =
      proceed server.settings request endpoint parameters payload (some record) s) :
    ¬ Gate.Refuses (server.handle none request).1.response.status := by
  have hw : Within (fun _ => True)
      (fun f => ∀ status detail, f = .refused status detail → ¬ Gate.Refuses status) s :=
    ⟨trivial, trivial, by simp [hs]⟩
  have hy := @proceed_yields server.settings request endpoint parameters payload record s hw
  rw [← h] at hy
  revert hy
  cases hx : serve server.settings request endpoint parameters server.session with
  | ok reply s' =>
    rintro ⟨-, hn⟩
    rw [handle_of_ok hr.target hx]
    exact hn
  | error f s' =>
    rintro ⟨-, hn⟩
    rw [handle_of_error hr.target hx]
    cases f with
    | refused status detail => exact hn status detail rfl
    | _ => simp [conclude, recover, respond, detail, Gate.Refuses]

end Handle

/-- When nothing fails, a request to the administration is served by its endpoint if and only if
its credentials name a caller that is granted the permission to administer. -/
theorem administration_iff_granted (hs : Reachable server.store)
    (hc : server.store.isComplete = true) (hu : server.settings.tokenConfig.Usable)
    (hr : request.ForAdministration endpoint parameters) (hp : request.Carries endpoint payload) :
    (¬ Gate.Refuses (server.handle none request).1.response.status ↔
      ∃ ref, Gate.Names server.settings request ref ∧
        server.store.GrantedTo Bootstrap.accessManagement ref) ∧
    (∀ ref, Gate.Names server.settings request ref →
      server.store.GrantedTo Bootstrap.accessManagement ref →
      ∃ record ∈ server.store.resolve? ref.kind ref.identifier,
        serve server.settings request endpoint parameters server.session =
          proceed server.settings request endpoint parameters payload (some record)
            server.session) ∧
    (∀ ref, Gate.Names server.settings request ref →
      ¬ server.store.GrantedTo Bootstrap.accessManagement ref →
      (server.handle none request).1.response.status = 403 ∧
        (server.handle none request).2 = server) ∧
    ((∀ ref, ¬ Gate.Names server.settings request ref) →
      (server.handle none request).1.response.status = 401 ∧
        (server.handle none request).2 = server) := by
  have calm : server.session.Calm := ⟨rfl, List.isEmpty_iff.mp hc⟩
  have distinct : server.session.current.Distinct := hs.distinct
  have hx := @serve_administrator server.settings request endpoint parameters payload hr.access hp
  have passes : ∀ ref, Gate.Names server.settings request ref →
      server.store.GrantedTo Bootstrap.accessManagement ref →
      ∃ record ∈ server.store.resolve? ref.kind ref.identifier,
        serve server.settings request endpoint parameters server.session =
          proceed server.settings request endpoint parameters payload (some record)
            server.session := by
    intro ref hn hg
    obtain ⟨record, hm, ha⟩ := Gate.requireAdministrator_allows calm rfl distinct hn hg
    exact ⟨record, hm, by rw [hx, bind_ok ha]⟩
  have forbids : ∀ ref, Gate.Names server.settings request ref →
      ¬ server.store.GrantedTo Bootstrap.accessManagement ref →
      (server.handle none request).1.response.status = 403 ∧
        (server.handle none request).2 = server := by
    intro ref hn hg
    obtain ⟨s, ha, hd, hk⟩ := Gate.requireAdministrator_forbids calm rfl distinct hn hg
    exact handle_refused hr hd hk (by rw [hx, bind_error ha]; rfl)
  have refuses : (∀ ref, ¬ Gate.Names server.settings request ref) →
      (server.handle none request).1.response.status = 401 ∧
        (server.handle none request).2 = server := by
    intro hn
    obtain ⟨detail, ha⟩ := Gate.requireAdministrator_refuses hu hn server.session
    exact handle_refused hr rfl rfl (by rw [hx, bind_error ha])
  refine ⟨⟨fun h => ?_, ?_⟩, passes, forbids, refuses⟩
  · by_cases hn : ∃ ref, Gate.Names server.settings request ref
    · obtain ⟨ref, hn⟩ := hn
      by_cases hg : server.store.GrantedTo Bootstrap.accessManagement ref
      · exact ⟨ref, hn, hg⟩
      · exact absurd (.inr (forbids ref hn hg).1) h
    · exact absurd (.inl (refuses fun ref hr => hn ⟨ref, hr⟩).1) h
  · rintro ⟨ref, hn, hg⟩
    obtain ⟨record, -, ha⟩ := passes ref hn hg
    exact handle_passed hr rfl ha

/-- An API key of the team that administers the service may list the teams. -/
theorem administration_iff_granted_key :
    let server : Server := ⟨{}, Sample.store, {}⟩
    let request : Request := ⟨"GET", "/v1/admin/teams?x=1", [("X-Api-Key", "k-1")], [], 0, "r"⟩
    Reachable server.store ∧ server.store.isComplete = true ∧ server.settings.tokenConfig.Usable ∧
      request.ForAdministration .listTeams [] ∧ request.Carries .listTeams .absent ∧
      ¬ Gate.Refuses (server.handle none request).1.response.status := by
  have usable : Settings.tokenConfig {} |>.Usable :=
    ⟨by decide, by decide, by decide +kernel, by decide +kernel⟩
  have route : Request.ForAdministration
      ⟨"GET", "/v1/admin/teams?x=1", [("X-Api-Key", "k-1")], [], 0, "r"⟩ .listTeams [] :=
    ⟨by decide +kernel, ⟨"GET", Route.admin [.fixed "teams"], .listTeams⟩, by decide, rfl, rfl⟩
  refine ⟨Sample.reachable, rfl, usable, route, rfl, ?_⟩
  refine (administration_iff_granted Sample.reachable rfl usable route rfl).1.mpr
    ⟨⟨.apiKey, "k-1"⟩, .apiKey (by decide +kernel) (by decide), Sample.key, by decide, rfl,
      Sample.admins, by decide, by decide, Sample.management, by decide, rfl, by decide⟩

end Server

end TeamAccess.Http
