import TeamAccess.Proofs.Http.Administration
import TeamAccess.Proofs.Http.Drafts

/-! # Refusals change nothing

A request is served in a session of its own, in which nothing is committed that is refused later. So
a request that is refused, or that ends in a failure, leaves the store as it was, and so does every
request that only asks.
-/

namespace TeamAccess.Http

open TeamAccess.Action

variable {st : Store}

/-- Whether the calls of an endpoint only read. -/
def Endpoint.reads : Endpoint → Bool
  | .health | .readiness | .whoAmI | .myPermissions | .listPermissions | .listTeams
  | .teamMappings | .listOidcGroups | .listUsers => true
  | _ => false

theorem Route.reads_of_get : ∀ r ∈ all, r.method = "GET" → r.endpoint.reads = true := by
  decide

theorem Route.of_target {method : String} {path : List Char} {endpoint : Endpoint}
    {parameters : Parameters} (h : target method path = .endpoint endpoint parameters) :
    ∃ r ∈ all, r.method = method ∧ r.endpoint = endpoint := by
  cases hm : matching? method path with
  | none =>
    simp only [target, hm] at h
    split at h
    · cases h
    · split at h <;> cases h
  | some found =>
    simp only [target, hm] at h
    cases h
    obtain ⟨r, hr, hf⟩ := List.exists_of_findSome?_eq_some hm
    split at hf
    · rename_i he
      obtain ⟨parameters, -, hf⟩ := Option.map_eq_some_iff.mp hf
      exact ⟨r, hr, he, congrArg Prod.fst hf⟩
    · cases hf

theorem Checked.of_fine_ap {α β : Type} {f : α → β} {a : Checked α} {b : β}
    (h : (Checked.fine f).ap a = .ok b) : ∃ x, a = .ok x ∧ f x = b := by
  cases a with
  | ok x => exact ⟨x, rfl, Except.ok.inj h⟩
  | error e => cases h

theorem Call.reads_of_ofRequest {endpoint : Endpoint} {parameters : Parameters} {request : Request}
    {payload : Payload} {call : Call} (he : endpoint.reads = true)
    (h : ofRequest endpoint parameters request payload = .ok call) : call.reads = true := by
  cases endpoint with
  | health | readiness | whoAmI | myPermissions | listPermissions | listTeams | listOidcGroups =>
    cases h
    rfl
  | teamMappings | listUsers =>
    obtain ⟨x, -, rfl⟩ := Checked.of_fine_ap h
    rfl
  | _ => cases he

namespace Server

variable {server : Server}

/-- A request has been answered by a call that changes something and went well. -/
def Changed (request : Request) (endpoint : Endpoint) (parameters : Parameters) (reply : Reply)
    (st st' : Store) : Prop :=
  ∃ payload call, request.Carries endpoint payload ∧
    Call.ofRequest endpoint parameters request payload = .ok call ∧ call.reads = false ∧
    reply.WentWell ∧ ∀ name, call = .createTeam name true → st.AddsTeamWithKey name st'

theorem serve_spares (hm : st.missing = []) (hd : st.Distinct) (settings : Settings)
    (request : Request) (endpoint : Endpoint) (parameters : Parameters) :
    Spares st st (serve settings request endpoint parameters) fun reply s =>
      s.durable = st ∨ Changed request endpoint parameters reply st s.durable := by
  unfold serve
  split
  · exact Ensures.pure fun _ hs => .inl hs.durable
  · rename_i payload hp
    refine (Gate.pass_rests hm hd endpoint.access).bind fun caller => ?_
    split
    · exact Ensures.pure fun _ hs => .inl hs.durable
    · rename_i call hcall
      cases hr : call.reads with
      | true => exact (Call.answer_rests hr).imp fun _ _ hs => .inl hs.durable
      | false =>
        have yields : Yields (fun _ => True) (fun _ => True) Reply.WentWell
            (call.answer settings request.now caller) :=
          Call.answer_yields ⟨Store.closed_true, fun _ _ => trivial⟩ (fun _ _ _ => trivial) _ _
            (fun _ => trivial) call
        refine ((Call.answer_saves hm hd hr).and_yields yields).imp ?_
        rintro reply s ⟨⟨st', hs, keyed⟩, well⟩
        exact .inr ⟨payload, call, hp, hcall, hr, well, hs.durable ▸ keyed⟩

/-- After a request the store is as it was, or a call that changes something went well. -/
theorem handle_cases (hm : server.store.missing = []) (hd : server.store.Distinct)
    (request : Request) :
    (server.handle none request).2.store = server.store ∨
      ∃ endpoint parameters reply,
        Route.target request.method request.path = .endpoint endpoint parameters ∧
        (server.handle none request).1.response.status = reply.status ∧
        (server.handle none request).1.crash = none ∧
        Changed request endpoint parameters reply server.store
          (server.handle none request).2.store := by
  cases ht : Route.target request.method request.path with
  | endpoint endpoint parameters =>
    have h := serve_spares hm hd server.settings request endpoint parameters server.session
      ⟨rfl, rfl, rfl⟩
    cases hx : serve server.settings request endpoint parameters server.session with
    | ok reply s =>
      rw [hx] at h
      rw [handle_of_ok ht hx]
      exact h.imp id fun changed => ⟨endpoint, parameters, reply, rfl, rfl, rfl, changed⟩
    | error f s =>
      rw [hx] at h
      rw [handle_of_error ht hx]
      exact .inl h
  | _ => exact .inl (by simp only [handle, ht])

/-- When nothing fails, a request that is refused or that ends in a failure leaves the store as it
was, and so does every request that only asks. A new team that is to have an API key is never left
without one. -/
theorem refusal_changes_nothing (server : Server) (hs : Reachable server.store)
    (hc : server.store.isComplete = true) (request : Request) :
    (400 ≤ (server.handle none request).1.response.status ∨
        (server.handle none request).1.crash.isSome = true →
      (server.handle none request).2.store = server.store) ∧
    (request.method = "GET" → (server.handle none request).2.store = server.store) ∧
    ∀ parameters payload name,
      Route.target request.method request.path = .endpoint .createTeam parameters →
      request.Carries .createTeam payload →
      Call.ofRequest .createTeam parameters request payload = .ok (.createTeam name true) →
      (server.handle none request).2.store = server.store ∨
        server.store.AddsTeamWithKey name (server.handle none request).2.store := by
  rcases handle_cases (List.isEmpty_iff.mp hc) hs.distinct request with
    same | ⟨endpoint, parameters, reply, ht, status, crash, changed⟩
  · exact ⟨fun _ => same, fun _ => same, fun _ _ _ _ _ _ => .inl same⟩
  · obtain ⟨payload, call, hp, hcall, hr, well, keyed⟩ := changed
    refine ⟨?_, fun hg => ?_, fun parameters' payload' name ht' hp' hcall' => ?_⟩
    · rw [status, crash]
      rcases well with ok | created
      · simp [ok]
      · simp [created]
    · obtain ⟨r, hmem, hmethod, rfl⟩ := Route.of_target ht
      have reads := Route.reads_of_get r hmem (hmethod.trans hg)
      cases hr.symm.trans (Call.reads_of_ofRequest reads hcall)
    · cases ht.symm.trans ht'
      cases hp.symm.trans hp'
      cases hcall.symm.trans hcall'
      exact .inr (keyed name rfl)

/-- A team is to be created with an API key. If the text that comes up for the key is taken, the
request ends in a failure and the team is not there; else the team and the key are there. -/
theorem refusal_changes_nothing_clash :
    let body := "\x7b\"name\":\"ops\",\"create_api_key\":true\x7d"
    let request : Request := ⟨"POST", "/v1/admin/teams",
      [("X-Api-Key", "k-1"), ("Content-Type", "application/json")], body.toUTF8.toList, 0, "r"⟩
    let clashing : Server := ⟨{}, Sample.store, { given := ["k-1"] }⟩
    let supplied : Server := ⟨{}, Sample.store, {}⟩
    Reachable Sample.store ∧ Sample.store.isComplete = true ∧
      (clashing.handle none request).1.crash.isSome = true ∧
      (clashing.handle none request).2.store = Sample.store ∧
      Sample.store.AddsTeamWithKey "ops" (supplied.handle none request).2.store := by
  intro body request clashing supplied
  have crashed : (clashing.handle none request).1.crash.isSome = true := by decide +kernel
  have target : Route.target request.method request.path = .endpoint .createTeam [] := by
    decide +kernel
  have parsed : (match readPayload request with
      | .ok payload => decide (Call.ofRequest .createTeam [] request payload =
          .ok (.createTeam "ops" true))
      | .error _ => false) = true := by decide +kernel
  have grown : (supplied.handle none request).2.store.teams ≠ Sample.store.teams := by
    decide +kernel
  refine ⟨Sample.reachable, rfl, crashed,
    (refusal_changes_nothing clashing Sample.reachable rfl request).1 (.inr crashed), ?_⟩
  cases hp : readPayload request with
  | error reply => simp [hp] at parsed
  | ok payload =>
    rw [hp] at parsed
    have added := (refusal_changes_nothing supplied Sample.reachable rfl request).2.2
      [] payload "ops" target hp (of_decide_eq_true parsed)
    exact added.resolve_left fun same => grown (congrArg Store.teams same)

end Server

end TeamAccess.Http
