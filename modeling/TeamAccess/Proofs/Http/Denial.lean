import TeamAccess.Proofs.Http.Administration
import TeamAccess.Proofs.Http.Caller

/-! # What a denied caller learns

The answer to a request of a caller that may not administer is determined by the settings and the
request alone. Two stores that both deny the caller are told apart by nothing in the answer, and
neither is changed.
-/

namespace TeamAccess.Http

open TeamAccess.Action

variable {settings : Settings} {request : Request} {endpoint : Endpoint} {parameters : Parameters}

/-- No caller that the credentials of a request name is granted the permission to administer. -/
def Gate.Denied (settings : Settings) (request : Request) (store : Store) : Prop :=
  ∀ ref, Gate.Names settings request ref → ¬ store.GrantedTo Bootstrap.accessManagement ref

namespace Gate

/-- What the request of a denied caller ends with. -/
def denial (settings : Settings) (request : Request) : Failure :=
  match origin settings request with
  | .ok _ => forbidden
  | .error f => f

/-- Credentials that name nobody are refused as they are, and a caller that is named and denied is
forbidden; the store has no part in which of the two it is. -/
theorem requireAdministrator_denies {s : Session} (hs : s.Calm) (hc : s.durable = s.current)
    (hd : s.current.Distinct) (h : Denied settings request s.current) :
    ∃ s', requireAdministrator settings request s = .error (denial settings request) s' ∧
      s'.durable = s.durable ∧ s'.keys = s.keys := by
  unfold denial
  cases ho : origin settings request with
  | ok ref =>
    have hn : Names settings request ref := identify_eq_ok_iff.mp ho
    exact requireAdministrator_forbids hs hc hd hn (h ref hn)
  | error f => exact ⟨s, bind_error (caller_of_origin_error ho s), rfl, rfl⟩

end Gate

namespace Server

variable {server : Server}

/-- The response to the request of a denied caller: the body is read before the caller is looked
at. -/
def denied (settings : Settings) (request : Request) (endpoint : Endpoint) : Response :=
  match if endpoint.takesBody then readPayload request else .ok .absent with
  | .error reply => respond request reply
  | .ok _ => (conclude request (.error (Gate.denial settings request)) []).response

theorem response_conclude (request : Request) (result : Except Failure Reply)
    (events : List Event) :
    (conclude request result events).response = (conclude request result []).response := by
  cases result with
  | ok reply => rfl
  | error f =>
    unfold conclude
    dsimp only
    split <;> rfl

/-- The request of a denied caller is answered without regard to the store and leaves the server as
it is. -/
theorem handle_denied (hs : server.store.Distinct) (hc : server.store.isComplete = true)
    (hr : request.ForAdministration endpoint parameters)
    (h : Gate.Denied server.settings request server.store) :
    (server.handle none request).1.response = denied server.settings request endpoint ∧
      (server.handle none request).2 = server := by
  unfold denied
  cases hp : (if endpoint.takesBody then readPayload request else .ok .absent) with
  | error reply =>
    -- a body that cannot be read is answered before the caller is looked at
    have hx : serve server.settings request endpoint parameters server.session =
        .ok reply server.session := by
      unfold serve
      rw [hp]
      rfl
    rw [handle_of_ok hr.target hx]
    exact ⟨rfl, rfl⟩
  | ok payload =>
    have calm : server.session.Calm := ⟨rfl, List.isEmpty_iff.mp hc⟩
    obtain ⟨s, ha, hd, hk⟩ := Gate.requireAdministrator_denies calm rfl hs h
    have hx : serve server.settings request endpoint parameters server.session =
        .error (Gate.denial server.settings request) s := by
      rw [serve_administrator hr.access hp, bind_error ha]
    rw [handle_of_error hr.target hx, hd, hk]
    exact ⟨response_conclude _ _ _, rfl⟩

/-- Two stores that both deny a caller give it the same answer to a request to the administration,
and both stay as they are. -/
theorem denied_indistinguishable {store₁ store₂ : Store} (keys₁ keys₂ : KeySupply)
    (h₁ : Reachable store₁) (h₂ : Reachable store₂) (c₁ : store₁.isComplete = true)
    (c₂ : store₂.isComplete = true) (hr : request.ForAdministration endpoint parameters)
    (d₁ : Gate.Denied settings request store₁) (d₂ : Gate.Denied settings request store₂) :
    (handle ⟨settings, store₁, keys₁⟩ none request).1.response =
        (handle ⟨settings, store₂, keys₂⟩ none request).1.response ∧
      (handle ⟨settings, store₁, keys₁⟩ none request).2 = ⟨settings, store₁, keys₁⟩ ∧
      (handle ⟨settings, store₂, keys₂⟩ none request).2 = ⟨settings, store₂, keys₂⟩ := by
  obtain ⟨r₁, u₁⟩ := @handle_denied request endpoint parameters ⟨settings, store₁, keys₁⟩
    h₁.distinct c₁ hr d₁
  obtain ⟨r₂, u₂⟩ := @handle_denied request endpoint parameters ⟨settings, store₂, keys₂⟩
    h₂.distinct c₂ hr d₂
  exact ⟨r₁.trans r₂.symm, u₁, u₂⟩

/-- A key that is stored without the permission and one that is not stored at all are refused
alike when they ask for a team, be it stored or not. -/
theorem denied_indistinguishable_key :
    let request : Request :=
      ⟨"GET", "/v1/admin/teams/6d1f0c2a-93b7-4e58-a1c4-000000000002/mappings",
        [("X-Api-Key", "k-2")], [], 0, "r"⟩
    Sample.guestKey ∈ Sample.guestStore.apiKeys ∧ Sample.guests ∈ Sample.guestStore.teams ∧
      Store.empty.teams = [] ∧
      (handle ⟨{}, Sample.guestStore, {}⟩ none request).1.response =
        (handle ⟨{}, .empty, {}⟩ none request).1.response := by
  intro request
  have only (ref : CallerRef) (h : Gate.Names {} request ref) : ref = ⟨.apiKey, "k-2"⟩ := by
    have named : Gate.origin {} request = .ok ⟨.apiKey, "k-2"⟩ :=
      Gate.identify_eq_ok_iff.mpr (.apiKey (by decide +kernel) (by decide))
    have ho : Gate.origin {} request = .ok ref := Gate.identify_eq_ok_iff.mpr h
    rw [named] at ho
    cases ho
    rfl
  have route : request.ForAdministration .teamMappings
      [("team_id", "6d1f0c2a-93b7-4e58-a1c4-000000000002")] :=
    ⟨by decide +kernel,
      ⟨"GET", Route.team [.fixed "mappings"], .teamMappings⟩, by decide, rfl, rfl⟩
  have known : Gate.Denied {} request Sample.guestStore := by
    intro ref h
    obtain rfl := only ref h
    have teams : ∀ k ∈ Sample.guestStore.apiKeys, k.key = "k-2" → ∀ t ∈ Sample.guestStore.teams,
        ⟨.apiKey, k.id, t.id⟩ ∈ Sample.guestStore.memberships →
        ¬ ∃ q ∈ Sample.guestStore.permissions, q.name = Bootstrap.accessManagement ∧
          ⟨t.id, q.id⟩ ∈ Sample.guestStore.teamGrants := by decide
    rintro ⟨k, hk, hn, t, ht, hm, hg⟩
    exact teams k hk hn t ht hm hg
  have unknown : Gate.Denied {} request .empty := by
    intro ref h
    obtain rfl := only ref h
    rintro ⟨k, hk, -⟩
    cases hk
  exact ⟨by decide, by decide, rfl, (denied_indistinguishable {} {}
    Sample.guestStore_reachable .empty rfl rfl route known unknown).1⟩

end Server

end TeamAccess.Http
