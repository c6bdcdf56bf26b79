import TeamAccess.Proofs.Http.Outage

/-! # What endpoints leave unguarded

An endpoint makes some store calls by itself and leaves the rest of its answer to a service. Only
services report a failure of the store as such; one that an endpoint meets by itself reaches nobody
who would take care of it.
-/

namespace TeamAccess

open TeamAccess.Action

/-- The outage hits a call of the registry or a commit, and not a service as a whole. -/
def Outage.OfStore (o : Outage) : Prop := o.call ≠ .addMembership ∧ o.call ≠ .removeMembership

/-- What the store reported, if a failure is the store's own. -/
def Failure.fault? : Failure → Option StoreFault
  | .store fault => some fault
  | _ => none

theorem Failure.fault?_eq_some {f : Failure} {fault : StoreFault} :
    f.fault? = some fault ↔ f = .store fault := by
  cases f <;> simp [Failure.fault?]

namespace Http

/-- What an endpoint leaves to a service. -/
inductive Delegation where
  | effective (principal : PrincipalHandle)
  | add (principal : PrincipalHandle) (team : TeamHandle)
  | remove (principal : PrincipalHandle) (team : TeamHandle)
  | synchronize (user : PrincipalHandle) (groups : List String)

namespace Delegation

/-- The call of the service. -/
def call : Delegation → ServiceCall
  | .effective p => .effective p
  | .add p t => .add p t
  | .remove p t => .remove p t
  | .synchronize user groups => .synchronize user (.groups groups)

/-- The answer of the endpoint. -/
def answer : Delegation → Action Reply
  | .effective p => do return .ok (.arr ((← Evaluation.effective p).map Reply.permission))
  | .add p t => return .changed (← MembershipService.add p t)
  | .remove p t => return .changed (← MembershipService.remove p t)
  | .synchronize user groups => do
    let refreshed ← tryCatch (Synchronization.synchronize user (.groups groups)) fun
      | .notSynchronized k => throw (.refused 400 (Failure.notSynchronized k).message)
      | failure => throw failure
    match refreshed with
    | .user r => return .ok (Reply.user r)
    | .apiKey _ => throw Call.notUsers

end Delegation

namespace Call

/-- What an endpoint does by itself: all of it, unless it leaves the rest to a service. -/
def own (settings : Settings) (now : Int) (caller : Option PrincipalRecord) :
    Call → Action (Reply ⊕ Delegation)
  | .myPermissions => return .inr (.effective (← self caller).handle)
  | .addUserToTeam kind username id => do
    let user ← theUser kind username
    let team ← theTeam id
    return .inr (.add user.user.handle team.team.handle)
  | .removeUserFromTeam kind username id => do
    let user ← theUser kind username
    let team ← theTeam id
    return .inr (.remove user.user.handle team.team.handle)
  | .synchronizeUser kind username groups =>
    return .inr (.synchronize (← theUser kind username).user.handle groups)
  | call => return .inl (← call.answer settings now caller)

/-- What remains to be done after that. -/
def rest : Reply ⊕ Delegation → Action Reply
  | .inl reply => pure reply
  | .inr delegation => delegation.answer

theorem answer_eq (settings : Settings) (now : Int) (caller : Option PrincipalRecord)
    (call : Call) : call.answer settings now caller = call.own settings now caller >>= rest := by
  cases call with
  | myPermissions | addUserToTeam | removeUserFromTeam =>
    simp only [own, bind_assoc, pure_bind]
    rfl
  | synchronizeUser =>
    simp only [own, bind_assoc, pure_bind]
    rfl
  | _ =>
    simp only [own, bind_assoc, pure_bind, rest]
    exact (bind_pure _).symm

theorem own_outage {settings : Settings} {now : Int} {caller : Option PrincipalRecord} {call : Call}
    {d : Delegation} {s s' : Session} (h : call.own settings now caller s = .ok (.inr d) s') :
    s'.outage.map (·.call) = s.outage.map (·.call) := by
  have user (kind : PrincipalKind) (username : String) : Steady (theUser kind username) :=
    .of_finds fun _ => theUser_finds kind username
  have team (id : Uuid) : Steady (theTeam id) := .of_finds fun _ => theTeam_finds id
  have same (hx : Steady (call.own settings now caller)) :
      s'.outage.map (·.call) = s.outage.map (·.call) := by
    have kept := hx s
    rw [left, h] at kept
    exact kept
  cases call with
  | myPermissions =>
    refine same (Steady.bind ?_ fun _ => .pure _)
    cases caller with
    | none => exact .throw _
    | some me => exact .pure me
  | addUserToTeam kind username id | removeUserFromTeam kind username id =>
    exact same ((user kind username).bind fun _ => (team id).bind fun _ => .pure _)
  | synchronizeUser kind username groups =>
    exact same ((user kind username).bind fun _ => .pure _)
  | _ =>
    -- every other endpoint makes its whole answer itself
    obtain ⟨reply, t, -, he⟩ := of_bind_ok h
    cases he

end Call

namespace Delegation

variable {d : Delegation} {s s' : Session} {f : Failure}

theorem answer_of_error (hf : ∀ kind, f ≠ .notSynchronized kind)
    (h : d.call.run s = .error f s') : d.answer s = .error f s' := by
  cases d with
  | effective p => exact bind_error (discard_error.mp h)
  | add p t => exact bind_error (discard_error.mp h)
  | remove p t => exact bind_error (discard_error.mp h)
  | synchronize user groups =>
    refine bind_error ?_
    rw [tryCatch_apply, discard_error.mp h]
    cases f with
    | notSynchronized kind => exact absurd rfl (hf kind)
    | _ => rfl

theorem run_of_answer {fault : StoreFault} (h : d.answer s = .error (.store fault) s') :
    d.call.run s = .error (.store fault) s' := by
  -- an answer is put together without a store call
  have failed {α : Type} {x : Action α} {g : α → Reply}
      (h : (do return g (← x) : Action Reply) s = .error (.store fault) s') :
      x s = .error (.store fault) s' := by
    rcases of_bind_error h with hx | ⟨a, t, -, hg⟩
    · exact hx
    · cases hg
  cases d with
  | effective p => exact discard_error.mpr (failed h)
  | add p t => exact discard_error.mpr (failed h)
  | remove p t => exact discard_error.mpr (failed h)
  | synchronize user groups =>
    refine discard_error.mpr ?_
    rcases of_bind_error h with hx | ⟨r, t, -, hg⟩
    · rw [tryCatch_apply] at hx
      cases ha : Synchronization.synchronize user (.groups groups) s with
      | ok r t =>
        rw [ha] at hx
        cases hx
      | error f t =>
        rw [ha] at hx
        cases f <;> cases hx
        rfl
    · cases r <;> cases hg

theorem entry_ne (h : ∀ o ∈ s.outage, o.OfStore) : ∀ o ∈ s.outage, d.call.entry ≠ some o.call := by
  intro o ho he
  obtain ⟨ha, hr⟩ := h o ho
  cases d with
  | add p t => exact ha (Option.some.inj he).symm
  | remove p t => exact hr (Option.some.inj he).symm
  | _ => cases he

end Delegation

namespace Server

variable {server : Server} {request : Request} {endpoint : Endpoint} {parameters : Parameters}
  {outage : Option Outage}

/-- The session that a request is served in during an outage. -/
def sessionUnder (server : Server) (outage : Option Outage) : Session :=
  { Session.start server.store outage with keys := server.keys }

theorem serve_eq {settings : Settings} {payload : Payload} (hp : request.Carries endpoint payload) :
    serve settings request endpoint parameters =
      Gate.pass settings request endpoint.access >>= fun caller =>
        proceed settings request endpoint parameters payload caller := by
  unfold serve
  rw [hp]
  rfl

theorem handle_under (ht : Route.target request.method request.path = .endpoint endpoint parameters)
    (outage : Option Outage) :
    (server.handle outage request).1 =
      match serve server.settings request endpoint parameters (server.sessionUnder outage) with
      | .ok reply s => conclude request (.ok reply) s.events
      | .error f s => conclude request (.error f) s.events := by
  simp only [handle, ht, handleEndpoint, sessionUnder]
  cases serve server.settings request endpoint parameters
    { Session.start server.store outage with keys := server.keys } <;> rfl

/-- During an outage, a request gets past the gate and asks for a call. -/
inductive Arrives (server : Server) (outage : Option Outage) (request : Request)
    (endpoint : Endpoint) (parameters : Parameters) (caller : Option PrincipalRecord) (call : Call)
    (s : Session) : Prop
  | mk (payload : Payload) (carries : request.Carries endpoint payload)
    (passes : Gate.pass server.settings request endpoint.access (server.sessionUnder outage) =
      .ok caller s)
    (checked : Call.ofRequest endpoint parameters request payload = .ok call)

section Arrives

variable {caller : Option PrincipalRecord} {call : Call} {s : Session}

theorem Arrives.serve_eq (h : Arrives server outage request endpoint parameters caller call s) :
    serve server.settings request endpoint parameters (server.sessionUnder outage) =
      (call.own server.settings request.now caller >>= Call.rest) s := by
  obtain ⟨payload, hp, hg, hc⟩ := h
  rw [Server.serve_eq hp, bind_ok hg, ← Call.answer_eq, proceed, hc]

/-- The outage goes on hitting the same calls once a service takes over. -/
theorem Arrives.outage_eq (h : Arrives server outage request endpoint parameters caller call s)
    {d : Delegation} {s' : Session}
    (hd : call.own server.settings request.now caller s = .ok (.inr d) s') :
    s'.outage.map (·.call) = outage.map (·.call) := by
  obtain ⟨payload, hp, hg, hc⟩ := h
  have gate := (Gate.pass_contained server.settings request endpoint.access).steady
    (server.sessionUnder outage)
  rw [left, hg] at gate
  exact (Call.own_outage hd).trans gate

theorem Arrives.ofStore (h : Arrives server outage request endpoint parameters caller call s)
    (ho : ∀ o ∈ outage, o.OfStore) {d : Delegation} {s' : Session}
    (hd : call.own server.settings request.now caller s = .ok (.inr d) s') :
    ∀ o ∈ s'.outage, o.OfStore := by
  intro o hm
  have same := h.outage_eq hd
  rw [Option.mem_def] at hm
  cases outage with
  | none => simp [hm] at same
  | some o' =>
    have hits := ho o' rfl
    simp only [hm, Option.map_some, Option.some.injEq] at same
    unfold Outage.OfStore at hits ⊢
    rw [same]
    exact hits

/-- A failure of the store that a service meets is answered as the store being unavailable. -/
theorem Arrives.unavailable (h : Arrives server outage request endpoint parameters caller call s)
    (ht : Route.target request.method request.path = .endpoint endpoint parameters)
    (ho : ∀ o ∈ outage, o.OfStore) {d : Delegation} {s₁ s₂ : Session} {fault : StoreFault}
    (hd : call.own server.settings request.now caller s = .ok (.inr d) s₁)
    (hm : Move.Meets s₁ (d.call.plan s₁.current).moves (.store fault) s₂) :
    (server.handle outage request).1.response = respond request (detail 503 "Store unavailable") ∧
      (server.handle outage request).1.crash = none := by
  have inside := Delegation.entry_ne (d := d) (h.ofStore ho hd)
  have reported : d.call.run s₁ = .error (.unavailable fault.message) _ :=
    d.call.run_of_meets inside hm
  have fails := Delegation.answer_of_error (f := .unavailable fault.message) nofun reported
  rw [handle_under ht, h.serve_eq, bind_ok hd, Call.rest, fails]
  exact ⟨rfl, rfl⟩

/-- A failure of the store that an endpoint meets by itself leaves the application. -/
theorem Arrives.escapes (h : Arrives server outage request endpoint parameters caller call s)
    (ht : Route.target request.method request.path = .endpoint endpoint parameters)
    {s₁ : Session} {fault : StoreFault}
    (hx : call.own server.settings request.now caller s = .error (.store fault) s₁) :
    (server.handle outage request).1.response = ⟨500, [], .text "Internal Server Error"⟩ ∧
      (server.handle outage request).1.crash = some (.store fault) := by
  rw [handle_under ht, h.serve_eq, bind_error hx]
  exact ⟨rfl, rfl⟩

/-- A failure of the store ends a request only where an endpoint meets it by itself. -/
theorem arrives_of_store_failure (ho : ∀ o ∈ outage, o.OfStore) {fault : StoreFault}
    (h : serve server.settings request endpoint parameters (server.sessionUnder outage) =
      .error (.store fault) s) :
    ∃ caller call s₁, Arrives server outage request endpoint parameters caller call s₁ ∧
      call.own server.settings request.now caller s₁ = .error (.store fault) s := by
  cases hp : (if endpoint.takesBody then readPayload request else .ok .absent) with
  | error reply =>
    unfold serve at h
    rw [hp] at h
    cases h
  | ok payload =>
    have split := h
    rw [Server.serve_eq hp] at split
    rcases of_bind_error split with hg | ⟨caller, s₁, hg, hr⟩
    · exact absurd hg (Gate.pass_contained _ _ _).isSealed.not_store
    · unfold proceed at hr
      cases hc : Call.ofRequest endpoint parameters request payload with
      | error complaints =>
        rw [hc] at hr
        cases hr
      | ok call =>
        have arrives : Arrives server outage request endpoint parameters caller call s₁ :=
          ⟨payload, hp, hg, hc⟩
        rw [arrives.serve_eq] at h
        rcases of_bind_error h with hx | ⟨part, s₂, hx, hr⟩
        · exact ⟨caller, call, s₁, arrives, hx⟩
        · cases part with
          | inl reply => cases hr
          | inr d =>
            have inside := Delegation.entry_ne (d := d) (arrives.ofStore ho hx)
            exact absurd (Delegation.run_of_answer hr) (d.call.run_ne_store inside)

theorem arrives_of_crash
    (ht : Route.target request.method request.path = .endpoint endpoint parameters)
    (ho : ∀ o ∈ outage, o.OfStore) {fault : StoreFault}
    (h : (server.handle outage request).1.crash = some (.store fault)) :
    ∃ caller call s s₁, Arrives server outage request endpoint parameters caller call s ∧
      call.own server.settings request.now caller s = .error (.store fault) s₁ := by
  rw [handle_under ht] at h
  cases hx : serve server.settings request endpoint parameters (server.sessionUnder outage) with
  | ok reply s =>
    rw [hx] at h
    cases h
  | error f s =>
    have escaped : f = .store fault := by
      rw [hx] at h
      cases f <;> cases h
      rfl
    subst escaped
    obtain ⟨caller, call, s₁, arrives, own⟩ := arrives_of_store_failure ho hx
    exact ⟨caller, call, s₁, s, arrives, own⟩

end Arrives

/-- A failure of the store that is met while a caller is resolved or authorized refuses the request
with 403, and one that a service meets is answered with 503. One that an endpoint meets by itself
leaves the application, and no other does. -/
theorem store_failure_response
    (ht : Route.target request.method request.path = .endpoint endpoint parameters)
    (ho : ∀ o ∈ outage, o.OfStore) :
    let exchange := (server.handle outage request).1
    (∀ payload ref fault, request.Carries endpoint payload →
      Gate.Names server.settings request ref →
      Gate.Fails (server.sessionUnder outage) ref fault endpoint.access →
      exchange.response = respond request (detail 403 "Forbidden") ∧ exchange.crash = none) ∧
    (∀ caller call s, Arrives server outage request endpoint parameters caller call s →
      (∀ d s₁ fault s₂, call.own server.settings request.now caller s = .ok (.inr d) s₁ →
        Move.Meets s₁ (d.call.plan s₁.current).moves (.store fault) s₂ →
        exchange.response = respond request (detail 503 "Store unavailable") ∧
          exchange.crash = none) ∧
      ∀ fault s₁, call.own server.settings request.now caller s = .error (.store fault) s₁ →
        exchange.response = ⟨500, [], .text "Internal Server Error"⟩ ∧
          exchange.crash = some (.store fault)) ∧
    ∀ fault, exchange.crash = some (.store fault) → ∃ caller call s s₁,
      Arrives server outage request endpoint parameters caller call s ∧
        call.own server.settings request.now caller s = .error (.store fault) s₁ := by
  refine ⟨?_, ?_, fun fault => arrives_of_crash ht ho⟩
  · intro payload ref fault carries named fails
    obtain ⟨s, refused⟩ := Gate.pass_of_fails named fails
    rw [handle_under ht, Server.serve_eq carries, bind_error refused]
    exact ⟨rfl, rfl⟩
  · intro caller call s arrives
    exact ⟨fun d s₁ fault s₂ => arrives.unavailable ht ho, fun fault s₁ => arrives.escapes ht⟩

/-- The driver gives out when an API key that asks for its permissions is looked up, and the request
is refused. If it gives out once the key is to be read again, the store is unavailable. -/
theorem store_failure_response_locked :
    let server : Server := ⟨{}, Sample.store, {}⟩
    let request : Request := ⟨"GET", "/v1/me/permissions", [("X-Api-Key", "k-1")], [], 0, "r"⟩
    let outage (call : StoreCall) : Option Outage := some ⟨call, .store .locked, 0⟩
    Route.target request.method request.path = .endpoint .myPermissions [] ∧
      (∀ o ∈ outage .findApiKey, o.OfStore) ∧
      (server.handle (outage .findApiKey) request).1.response =
        respond request (detail 403 "Forbidden") ∧
      (server.handle (outage .findApiKey) request).1.crash = none ∧
      (server.handle (outage .reload) request).1.response.status = 503 := by
  intro server request outage
  have target : Route.target request.method request.path = .endpoint .myPermissions [] := by
    decide +kernel
  have inside : ∀ o ∈ outage .findApiKey, o.OfStore := by simp [outage, Outage.OfStore]
  have named : Gate.Names server.settings request ⟨.apiKey, "k-1"⟩ :=
    .apiKey (by decide +kernel) (by decide)
  have fails : Gate.Fails (server.sessionUnder (outage .findApiKey)) ⟨.apiKey, "k-1"⟩ .locked
      .principal := .resolving (by decide) rfl
  obtain ⟨response, crash⟩ :=
    (store_failure_response target inside).1 .absent ⟨.apiKey, "k-1"⟩ .locked rfl named fails
  exact ⟨target, inside, response, crash, by decide +kernel⟩

/-- The table of the provider groups is missing. The endpoint that lists them meets that by itself,
behind the gate, and the failure leaves the application. -/
theorem missing_groups_escape :
    let server : Server := ⟨{}, Sample.store.dropTable .oidcGroups, {}⟩
    let request : Request := ⟨"GET", "/v1/admin/oidc-groups", [("X-Api-Key", "k-1")], [], 0, "r"⟩
    Reachable server.store ∧ request.ForAdministration .listOidcGroups [] ∧
      (server.handle none request).1.response.status = 500 ∧
      (server.handle none request).1.crash = some (.store (.noSuchTable "oidc_groups")) := by
  intro server request
  have dropped : (Script.runEntry (.single ⟨.dropTable "oidc_groups", none⟩) Sample.store).2 =
      server.store := by decide +kernel
  have reachable : Reachable server.store := dropped ▸ .script _ Sample.reachable
  have target : request.ForAdministration .listOidcGroups [] :=
    ⟨by decide +kernel, ⟨"GET", Route.admin [.fixed "oidc-groups"], .listOidcGroups⟩, by decide,
      rfl, rfl⟩
  have escapes : (server.handle none request).1.crash.bind Failure.fault? =
      some (.noSuchTable "oidc_groups") := by decide +kernel
  obtain ⟨f, crash, fault⟩ := Option.bind_eq_some_iff.mp escapes
  rw [Failure.fault?_eq_some.mp fault] at crash
  exact ⟨reachable, target, by decide +kernel, crash⟩

end Server

end Http

end TeamAccess
