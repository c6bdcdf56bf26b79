import TeamAccess.Proofs.Http.Administration
import TeamAccess.Proofs.Registry.Writes
import TeamAccess.Proofs.Service.Membership

/-! # How a request ends

When nothing fails, the request of a caller that may administer ends as its call does: with a status
and a store, either because it is answered or because it is refused. No failure escapes then.
-/

namespace TeamAccess.Http

open TeamAccess.Action

variable {st st' : Store} {keys : KeySupply} {events : List Event} {status : Nat}

/-- In a session, an action answers or refuses with a status and leaves a store behind. -/
def Ends (act : Action Reply) (s : Session) (status : Nat) (st' : Store) : Prop :=
  (∃ reply s', act s = .ok reply s' ∧ reply.status = status ∧ s'.durable = st') ∨
    ∃ detail s', act s = .error (.refused status detail) s' ∧ s'.durable = st'

namespace Ends

variable {α β : Type} {act : Action Reply} {s : Session} {x : Action α} {g : α → Action Reply}
  {a : α}

theorem answered (reply : Reply) (s : Session) : Ends (pure reply) s reply.status s.durable :=
  .inl ⟨reply, s, rfl, rfl, rfl⟩

theorem refused (status : Nat) (detail : String) (s : Session) :
    Ends (throw (.refused status detail)) s status s.durable := .inr ⟨detail, s, rfl, rfl⟩

theorem bind {s' : Session} (hx : x s = .ok a s') (hg : Ends (g a) s' status st') :
    Ends (x >>= g) s status st' := by
  unfold Ends
  rw [bind_ok hx]
  exact hg

theorem read (hm : st.missing = []) (hx : Reads st x (.ok a))
    (hg : Ends (g a) (Session.on st keys events) status st') :
    Ends (x >>= g) (Session.on st keys events) status st' :=
  bind (hx.calm_ok (Session.on_calm hm)) hg

theorem write {st₁ st₂ : Store} (hx : Writes st₁ x a st₂) (ho : s.outage = none)
    (hs : s.current = st₁) (hg : Ends (g a) { s with current := st₂ } status st') :
    Ends (x >>= g) s status st' := bind (hx s ho hs) hg

theorem commit (ho : s.outage = none)
    (hr : Ends act { s with durable := s.current } status st') :
    Ends (do Action.commit; act) s status st' := bind (commit_calm ho) hr

theorem record {e : Event} (hr : Ends act { s with events := s.events ++ [e] } status st') :
    Ends (do Action.record e; act) s status st' := bind rfl hr

section Refusal

variable {o : Option β} {detail : String}

theorem clash (ho : o ≠ none) : Ends (do Call.refuseIf o detail; act) s 409 s.durable := by
  have there : o.isSome = true := by simpa [Option.isSome_iff_ne_none] using ho
  unfold Call.refuseIf
  rw [if_pos there]
  exact refused 409 detail s

theorem clear (ho : o = none) (hr : Ends act s status st') :
    Ends (do Call.refuseIf o detail; act) s status st' := by
  subst ho
  exact hr

/-- What is to be created is looked up first, and refused if it is there. -/
theorem found {x : Action (Option β)} (hm : st.missing = []) (hx : Reads st x (.ok o))
    (ho : o ≠ none) :
    Ends (do Call.refuseIf (← x) detail; act) (Session.on st keys events) 409 st :=
  read hm hx (clash ho)

theorem absent {x : Action (Option β)} (hm : st.missing = []) (hx : Reads st x (.ok o))
    (ho : o = none) (hr : Ends act (Session.on st keys events) status st') :
    Ends (do Call.refuseIf (← x) detail; act) (Session.on st keys events) status st' :=
  read hm hx (clear ho hr)

end Refusal

end Ends

namespace Server

variable {server : Server} {request : Request} {endpoint : Endpoint} {parameters : Parameters}
  {payload : Payload} {call : Call} {ref : CallerRef}

/-- A request ends as its call does if its caller may administer. -/
theorem handle_ends (hm : server.store.missing = []) (hd : server.store.Distinct)
    (hr : request.ForAdministration endpoint parameters) (hp : request.Carries endpoint payload)
    (hc : Call.ofRequest endpoint parameters request payload = .ok call)
    (hn : Gate.Names server.settings request ref)
    (hg : server.store.GrantedTo Bootstrap.accessManagement ref)
    (h : ∀ caller,
      Ends (call.answer server.settings request.now caller) server.session status st') :
    (server.handle none request).1.response.status = status ∧
      (server.handle none request).1.crash = none ∧
      (server.handle none request).2.store = st' := by
  have calm : server.session.Calm := ⟨rfl, hm⟩
  obtain ⟨record, -, ha⟩ := Gate.requireAdministrator_allows calm rfl hd hn hg
  have served : serve server.settings request endpoint parameters server.session =
      call.answer server.settings request.now (some record) server.session := by
    rw [serve_administrator hr.access hp, bind_ok ha, proceed, hc]
  rcases h (some record) with ⟨reply, s, hx, rfl, rfl⟩ | ⟨detail, s, hx, rfl⟩
  · rw [handle_of_ok hr.target (served.trans hx)]
    exact ⟨rfl, rfl, rfl⟩
  · rw [handle_of_error hr.target (served.trans hx)]
    exact ⟨rfl, rfl, rfl⟩

end Server

end TeamAccess.Http
