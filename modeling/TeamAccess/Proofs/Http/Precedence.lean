import TeamAccess.Proofs.Http.Denial
import TeamAccess.Proofs.Http.Outage

/-! # What is judged before the caller

A request to the administration whose caller is refused is answered with the refusal, whatever its
parameters, its query and the fields of its body are, and even when the store fails. The one thing
that is looked at before the caller is whether the body is JSON at all.
-/

namespace TeamAccess

open TeamAccess.Action

/-- An outage in which calls end with a fault of the store. -/
def Outage.Faulty (o : Outage) : Prop := ∃ fault, o.failure = .store fault

/-- A failure of the store and an absent principal deny. -/
theorem Stage.Meets.isDenied {st : Store} {outage : Option Outage} {stages : List Stage}
    {f : Failure} (ho : ∀ o ∈ outage, o.Faulty) (h : Stage.Meets st outage stages f) :
    f.isDenied = true := by
  obtain ⟨before, x, after, -, -, -, hf⟩ := h
  rcases x with ⟨c | tables⟩ | p | b
  · obtain ⟨o, hm, -, -, rfl⟩ := hf
    obtain ⟨fault, he⟩ := ho o hm
    rw [he]
    rfl
  · obtain ⟨t, -, rfl⟩ := hf
    rfl
  · rw [show f = p.notFound from hf]
    rfl
  · exact hf.elim

namespace Http

variable {server : Server} {settings : Settings} {outage : Option Outage}
  {request request' : Request} {endpoint : Endpoint} {parameters parameters' : Parameters}

/-- The body of a request is JSON where an endpoint reads it as such. -/
def Request.Readable (request : Request) (endpoint : Endpoint) : Prop :=
  endpoint.takesBody = true → request.body.isEmpty = false → request.declaresJson = true →
    ∃ j, Json.parseBytes request.body = .ok j

/-- A body that is not JSON is answered with a status of its own. -/
theorem Request.readable_cases (request : Request) (endpoint : Endpoint) :
    (request.Readable endpoint ∧ ∃ payload, request.Carries endpoint payload) ∨
    ¬ request.Readable endpoint ∧ endpoint.takesBody = true ∧ ∃ reply,
      Server.readPayload request = .error reply ∧ (reply.status = 400 ∨ reply.status = 422) := by
  by_cases ht : endpoint.takesBody = true
  · simp only [Request.Carries, if_pos ht]
    unfold Server.readPayload
    cases hb : request.body.isEmpty with
    | true => exact .inl ⟨fun _ h => absurd (hb.symm.trans h) (by decide), _, rfl⟩
    | false =>
      cases hd : request.declaresJson with
      | false => exact .inl ⟨fun _ _ h => absurd (hd.symm.trans h) (by decide), _, rfl⟩
      | true =>
        cases hj : Json.parseBytes request.body with
        | ok j => exact .inl ⟨fun _ _ _ => ⟨j, hj⟩, _, rfl⟩
        | error e =>
          refine .inr ⟨fun h => ?_, ht, ?_⟩
          · obtain ⟨j, hj'⟩ := h ht hb hd
            cases hj.symm.trans hj'
          · rcases e with _ | ⟨issue, _, _, _⟩
            · exact ⟨_, rfl, .inl rfl⟩
            · cases issue with
              | tooManyDigits digits => exact ⟨_, rfl, .inl rfl⟩
              | _ => exact ⟨_, rfl, .inr rfl⟩
  · exact .inl ⟨fun h => absurd h ht, .absent, if_neg ht⟩

namespace Gate

variable {s : Session} {ref : CallerRef}

/-- The credentials of a request are missing or rejected. -/
def Rejects (settings : Settings) (request : Request) : Prop :=
  ∃ e, CallerRef.ofCredentials settings.tokenConfig request.now request.bearer? request.apiKey? =
    .error e ∧ ∀ fault, e ≠ .key fault

theorem origin_of_rejects (h : Rejects settings request) :
    ∃ detail, origin settings request = .error (.refused 401 detail) := by
  obtain ⟨e, he, hk⟩ := h
  unfold origin identify
  rw [he]
  cases e with
  | key fault => exact absurd rfl (hk fault)
  | _ => exact ⟨_, rfl⟩

theorem origin_eq_ok_iff : origin settings request = .ok ref ↔ Names settings request ref :=
  identify_eq_ok_iff

theorem not_names_of_rejects (h : Rejects settings request) : ¬ Names settings request ref := by
  intro hn
  obtain ⟨detail, ho⟩ := origin_of_rejects h
  cases ho.symm.trans (origin_eq_ok_iff.mpr hn)

theorem denied_of_names {store : Store} (hn : Names settings request ref)
    (hg : ¬ store.GrantedTo Bootstrap.accessManagement ref) : Denied settings request store := by
  intro ref' hn'
  cases (origin_eq_ok_iff.mpr hn).symm.trans (origin_eq_ok_iff.mpr hn')
  exact hg

/-- A caller that is not granted the permission to administer is forbidden, also by a store that
fails. -/
theorem requireAdministrator_forbids_failing
    (ho : ∀ o ∈ s.outage, o.Faulty) (hc : s.durable = s.current)
    (hd : s.current.Distinct) (hn : Names settings request ref)
    (hg : ¬ s.current.GrantedTo Bootstrap.accessManagement ref) :
    ∃ s', requireAdministrator settings request s = .error forbidden s' ∧
      s'.durable = s.durable ∧ s'.keys = s.keys := by
  unfold requireAdministrator
  rw [bind_ok (caller_of_names hn s)]
  obtain ⟨probes, hx⟩ := @Principals.resolve?_reads s.current ref.kind ref.identifier
  specialize hx s rfl
  rcases probeAll_cases probes s with ⟨f, o, hp, hf, -⟩ | ⟨o, hp, ho'⟩
  · rw [bind_error hp] at hx
    obtain ⟨fault, rfl⟩ : ∃ fault, f = .store fault := by
      rcases hf with ⟨o, hm, rfl⟩ | ⟨t, -, rfl⟩
      · exact ho o hm
      · exact ⟨_, rfl⟩
    have unknown : principal? ref s = .ok none { s with outage := o } := by
      rw [principal?, tryCatch_apply, Decision.guarded_error hx, Session.leftBy_outage,
        Session.leftBy_of_eq hc]
      rfl
    rw [bind_ok unknown]
    exact ⟨_, bind_ok (Decision.authorize_none _ _), rfl, rfl⟩
  · rw [bind_ok hp] at hx
    have known : principal? ref s =
        .ok (s.current.resolve? ref.kind ref.identifier) { s with outage := o } := by
      rw [principal?, tryCatch_apply, guarded_ok hx]
    rw [bind_ok known]
    cases hr : s.current.resolve? ref.kind ref.identifier with
    | none => exact ⟨_, bind_ok (Decision.authorize_none _ _), rfl, rfl⟩
    | some record =>
      have ho : ∀ o' ∈ o, o'.Faulty := by
        intro o' hm
        obtain ⟨q, hq, he⟩ := ho' o' hm
        obtain ⟨fault, hf⟩ := ho q hq
        exact ⟨fault, he ▸ hf⟩
      rcases Decision.authorize_cases { s with outage := o } record.handle
        [Bootstrap.accessManagement] with ⟨f, hm, ha⟩ | ⟨-, ha⟩
      · rw [if_pos (hm.isDenied ho), Session.leftBy_outage, Session.leftBy_of_eq hc] at ha
        obtain ⟨o', reason, ha⟩ := ha
        exact ⟨_, bind_ok ha, rfl, rfl⟩
      · rw [if_neg fun hv => ?_] at ha
        · obtain ⟨o', ha⟩ := ha
          exact ⟨_, bind_ok ha, rfl, rfl⟩
        · obtain ⟨name, hm, hv⟩ := (verdict_mem_trail hd).mp hv
          obtain rfl := List.mem_singleton.mp hm
          exact hg ((Store.grantedTo_iff hd).mpr ⟨record, hr, hv⟩)

end Gate

namespace Server

/-- The request of a denied caller is answered as the settings and the request say, also by a store
that fails. -/
theorem handle_denied_failing (ho : ∀ o ∈ outage, o.Faulty)
    (hs : server.store.Distinct) (hr : request.ForAdministration endpoint parameters)
    (h : Gate.Denied server.settings request server.store) :
    (server.handle outage request).1.response = denied server.settings request endpoint ∧
      (server.handle outage request).2 = server := by
  let start : Session := { Session.start server.store outage with keys := server.keys }
  have hx : server.handle outage request =
      server.handleEndpoint outage request endpoint parameters := by
    simp only [handle, hr.target]
  rw [hx]
  unfold denied handleEndpoint
  dsimp only
  cases hp : (if endpoint.takesBody then readPayload request else .ok .absent) with
  | error reply =>
    have early : serve server.settings request endpoint parameters start = .ok reply start := by
      unfold serve
      rw [hp]
      rfl
    rw [early]
    exact ⟨rfl, rfl⟩
  | ok payload =>
    have gate : ∃ s, Gate.requireAdministrator server.settings request start =
        .error (Gate.denial server.settings request) s ∧ s.durable = server.store ∧
          s.keys = server.keys := by
      unfold Gate.denial
      cases horigin : Gate.origin server.settings request with
      | ok ref =>
        have hn := Gate.origin_eq_ok_iff.mp horigin
        exact Gate.requireAdministrator_forbids_failing ho rfl hs hn (h ref hn)
      | error f => exact ⟨start, bind_error (Gate.caller_of_origin_error horigin start), rfl, rfl⟩
    obtain ⟨s, ha, hd, hk⟩ := gate
    have refused : serve server.settings request endpoint parameters start =
        .error (Gate.denial server.settings request) s := by
      rw [serve_administrator hr.access hp, bind_error ha]
    rw [refused]
    dsimp only
    rw [hd, hk]
    exact ⟨response_conclude _ _ _, rfl⟩

/-- A body that is not JSON is answered before anybody is asked for, whoever it comes from. -/
theorem handle_unreadable (hr : request.ForAdministration endpoint parameters)
    (hn : ¬ request.Readable endpoint) :
    ((server.handle outage request).1.response.status = 400 ∨
      (server.handle outage request).1.response.status = 422) ∧
    (server.handle outage request).2 = server := by
  rcases request.readable_cases endpoint with ⟨h, -⟩ | ⟨-, ht, reply, hp, hs⟩
  · exact absurd h hn
  · have early (s : Session) :
        serve server.settings request endpoint parameters s = .ok reply s := by
      unfold serve
      rw [if_pos ht, hp]
      rfl
    simp only [handle, hr.target, handleEndpoint, early]
    exact ⟨hs, rfl⟩

theorem denied_of_readable (h : request.Readable endpoint) :
    denied settings request endpoint =
      (conclude request (.error (Gate.denial settings request)) []).response := by
  rcases request.readable_cases endpoint with ⟨-, payload, hp⟩ | ⟨hn, -⟩
  · unfold denied
    rw [show (if endpoint.takesBody then readPayload request else .ok .absent) = _ from hp]
  · exact absurd h hn

/-- A request whose caller is refused is answered with the status of the gate exactly if its body is
JSON where its endpoint reads it as such. Nothing else of its parameters, its query and its body
matters: all such requests with the same credentials are answered alike, also by a store that
fails. A body that is not JSON is answered with a status of its own, whoever it comes from. -/
theorem gate_first_iff_readable (hs : Reachable server.store) (ho : ∀ o ∈ outage, o.Faulty)
    (hr : request.ForAdministration endpoint parameters) :
    (Gate.Rejects server.settings request →
      ((server.handle outage request).1.response.status = 401 ↔ request.Readable endpoint)) ∧
    (∀ ref, Gate.Names server.settings request ref →
      ¬ server.store.GrantedTo Bootstrap.accessManagement ref →
      ((server.handle outage request).1.response.status = 403 ↔ request.Readable endpoint)) ∧
    (¬ request.Readable endpoint →
      (server.handle outage request).1.response.status = 400 ∨
        (server.handle outage request).1.response.status = 422) ∧
    (Gate.Denied server.settings request server.store →
      (server.handle outage request).2 = server ∧
      ∀ request' endpoint' parameters', request'.ForAdministration endpoint' parameters' →
        request'.bearer? = request.bearer? → request'.apiKey? = request.apiKey? →
        request'.now = request.now → request.Readable endpoint → request'.Readable endpoint' →
        (server.handle outage request').1.response.status =
            (server.handle outage request).1.response.status ∧
          (server.handle outage request').1.response.content =
            (server.handle outage request).1.response.content) := by
  have unread {status : Nat} (h : (server.handle outage request).1.response.status = status)
      (h₀ : status ≠ 400) (h₂ : status ≠ 422) : request.Readable endpoint := by
    by_contra hn
    rcases (@handle_unreadable server outage request endpoint parameters hr hn).1 with he | he
    · exact h₀ (h.symm.trans he)
    · exact h₂ (h.symm.trans he)
  have refused {request' : Request} {endpoint' : Endpoint} {parameters' : Parameters}
      (hr : request'.ForAdministration endpoint' parameters') (hb : request'.Readable endpoint')
      (h : Gate.Denied server.settings request' server.store) :
      (server.handle outage request').1.response =
        (conclude request' (.error (Gate.denial server.settings request')) []).response := by
    rw [(handle_denied_failing ho hs.distinct hr h).1, denied_of_readable hb]
  refine ⟨fun hj => ⟨fun h => unread h (by decide) (by decide), fun hb => ?_⟩,
    fun ref hn hg => ⟨fun h => unread h (by decide) (by decide), fun hb => ?_⟩,
    fun hn => (handle_unreadable hr hn).1,
    fun hd => ⟨(handle_denied_failing ho hs.distinct hr hd).2,
      fun request' endpoint' parameters' hr' bearer apiKey now hb hb' => ?_⟩⟩
  · obtain ⟨detail, hd⟩ := Gate.origin_of_rejects hj
    rw [refused hr hb fun ref hn => absurd hn (Gate.not_names_of_rejects hj), Gate.denial, hd]
    rfl
  · rw [refused hr hb (Gate.denied_of_names hn hg), Gate.denial, Gate.origin_eq_ok_iff.mpr hn]
    rfl
  · have same : Gate.origin server.settings request' = Gate.origin server.settings request := by
      rw [Gate.origin, Gate.origin, bearer, apiKey, now]
    have hd' : Gate.Denied server.settings request' server.store := by
      intro ref hn
      rw [← Gate.origin_eq_ok_iff, same] at hn
      exact hd ref (Gate.origin_eq_ok_iff.mp hn)
    rw [refused hr hb hd, refused hr' hb' hd', Gate.denial, Gate.denial, same]
    unfold conclude
    dsimp only
    split <;> exact ⟨rfl, rfl⟩

/-- A key that may not administer is forbidden to rename a team, whatever is wrong with the
identifier and the name that it sends. -/
theorem gate_first_iff_readable_key :
    let request : Request := ⟨"PATCH", "/v1/admin/teams/x",
      [("X-Api-Key", "k-2"), ("Content-Type", "application/json")],
      "\x7b\"name\": 1\x7d".toUTF8.toList, 0, "r"⟩
    let server : Server := ⟨{}, Sample.guestStore, {}⟩
    Reachable server.store ∧ request.ForAdministration .renameTeam [("team_id", "x")] ∧
      Gate.Names {} request ⟨.apiKey, "k-2"⟩ ∧
      ¬ server.store.GrantedTo Bootstrap.accessManagement ⟨.apiKey, "k-2"⟩ ∧
      (server.handle none request).1.response.status = 403 := by
  intro request server
  have route : request.ForAdministration .renameTeam [("team_id", "x")] :=
    ⟨by decide +kernel, ⟨"PATCH", Route.team [], .renameTeam⟩, by decide, rfl, rfl⟩
  have named : Gate.Names {} request ⟨.apiKey, "k-2"⟩ := .apiKey (by decide +kernel) (by decide)
  have denied : ¬ Sample.guestStore.GrantedTo Bootstrap.accessManagement ⟨.apiKey, "k-2"⟩ := by
    have teams : ∀ k ∈ Sample.guestStore.apiKeys, k.key = "k-2" → ∀ t ∈ Sample.guestStore.teams,
        ⟨.apiKey, k.id, t.id⟩ ∈ Sample.guestStore.memberships → t = Sample.guests := by decide
    have grants : ∀ g ∈ Sample.guestStore.teamGrants, g.team ≠ Sample.guests.id := by decide
    rintro ⟨k, hk, hn, t, ht, hm, q, -, -, hg⟩
    exact grants _ hg (congrArg Team.id (teams k hk hn t ht hm))
  have parsed : (Json.parseBytes request.body).toOption.isSome = true := by decide +kernel
  have body : request.Readable .renameTeam := by
    intro _ _ _
    cases hj : Json.parseBytes request.body with
    | ok j => exact ⟨j, rfl⟩
    | error e => simp [hj, Except.toOption] at parsed
  refine ⟨Sample.guestStore_reachable, route, named, denied, ?_⟩
  exact ((gate_first_iff_readable Sample.guestStore_reachable (by simp)
    route).2.1 _ named denied).mpr body

/-- A body that is not JSON is answered with its own status although no credentials are given; with
one that is JSON the same request is refused. -/
theorem unreadable_precedes_missing :
    let request (body : String) : Request := ⟨"POST", "/v1/admin/permissions",
      [("Content-Type", "application/json")], body.toUTF8.toList, 0, "r"⟩
    (∀ body, Gate.Rejects {} (request body)) ∧
      (handle ⟨{}, .empty, {}⟩ none (request "\x7b")).1.response.status = 422 ∧
      (handle ⟨{}, .empty, {}⟩ none (request "\x7b\x7d")).1.response.status = 401 := by
  intro request
  refine ⟨fun body => ⟨.missing, ?_, nofun⟩, by decide +kernel, by decide +kernel⟩
  have bearer : (request body).bearer? = none := (by decide +kernel : (request "").bearer? = none)
  have apiKey : (request body).apiKey? = none := (by decide +kernel : (request "").apiKey? = none)
  rw [bearer, apiKey]
  rfl

end Server

end Http

end TeamAccess
