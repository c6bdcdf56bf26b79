import TeamAccess.Proofs.Service.Courses

/-! # Store failures surface as unavailability

Each of the services reports a failure of the store, whichever of its accesses meets it, as the
store being unavailable, in the words of the failure and once only, and forgets what was uncommitted
at that point. Every other failure passes through as it is.
-/

namespace TeamAccess

open TeamAccess.Action

namespace Action

variable {α β : Type} {x : Action α}

/-- No failure of the store comes out as such: guarding the action once more changes nothing. -/
def Sealed (act : Action α) : Prop := guarded act = act

namespace Sealed

theorem guarded (x : Action α) : Sealed (guarded x) := guarded_guarded x

theorem pure (a : α) : Sealed (pure a) := rfl

theorem record (e : Event) : Sealed (record e) := rfl

theorem throw {f : Failure} (h : ∀ fault, f ≠ .store fault) : Sealed (throw f : Action α) := by
  cases f with
  | store fault => exact absurd rfl (h fault)
  | _ => rfl

theorem bind {g : α → Action β} (hx : Sealed x) (hg : ∀ a, Sealed (g a)) : Sealed (x >>= g) := by
  unfold Sealed
  rw [guarded_bind, hx]
  exact congrArg _ (funext hg)

theorem discard (hx : Sealed x) : Sealed (discard x) := by
  rw [discard_eq_bind]
  exact hx.bind fun _ => pure ()

theorem not_store (hx : Sealed x) {s σ : Session} {fault : StoreFault} :
    x s ≠ .error (.store fault) σ := by
  intro h
  rw [← hx, Action.guarded, tryCatch_apply] at h
  cases hs : x s with
  | ok a s' =>
    rw [hs] at h
    cases h
  | error f s' =>
    rw [hs] at h
    cases f <;> cases h

theorem tryCatch {g : Failure → Action α} (hx : Sealed x)
    (hg : ∀ f, (∀ fault, f ≠ .store fault) → Sealed (g f)) : Sealed (tryCatch x g) := by
  funext s
  cases h : x s with
  | ok a s' =>
    have caught : (MonadExcept.tryCatch x g : Action α) s = .ok a s' := by rw [tryCatch_apply, h]
    rw [guarded_ok caught, caught]
  | error f s' =>
    have other : ∀ fault, f ≠ .store fault := by
      rintro fault rfl
      exact hx.not_store h
    have caught : (MonadExcept.tryCatch x g : Action α) s = g f s' := by rw [tryCatch_apply, h]
    have same := congrFun (hg f other) s'
    rw [caught]
    rw [Action.guarded, tryCatch_apply] at same ⊢
    rw [caught]
    exact same

end Sealed

theorem guarded_discard {s : Session} (h : guarded x s = x s) :
    guarded (discard x) s = discard x s := by
  rw [discard_eq_bind, guarded_bind, bind_apply, h, bind_apply]
  rfl

end Action

/-- A plan that gives up, if it does, for a reason of its own. -/
def Plan.Candid {α : Type} (plan : Plan α) : Prop :=
  ∀ st fault, (plan st).result ≠ .error (.store fault)

namespace Plan.Candid

variable {α β : Type} {plan : Plan α}

theorem pure (a : α) : Candid (pure a) := nofun

theorem moves (ms : List Move) : Candid (moves ms) := nofun

theorem fail {f : Failure} (h : ∀ fault, f ≠ .store fault) : Candid (fail f : Plan α) :=
  fun _ fault he => h fault (Except.error.inj he)

theorem reads {ps : Store → List Probe} {r : Store → Except Failure α}
    (h : ∀ st fault, r st ≠ .error (.store fault)) : Candid (reads ps r) := h

theorem answers (ps : Store → List Probe) (f : Store → α) :
    Candid (Plan.reads ps fun st => .ok (f st)) := reads nofun

theorem bind {next : α → Plan β} (hp : Candid plan) (hn : ∀ a, Candid (next a)) :
    Candid (plan >>= next) := by
  intro st fault
  change (plan.andThen next st).result ≠ _
  unfold andThen
  cases hr : (plan st).result with
  | ok a => exact hn a _ fault
  | error f =>
    rintro ⟨⟩
    exact hp st fault hr

theorem forM {next : α → Plan Unit} (h : ∀ a, Candid (next a)) (xs : List α) :
    Candid (xs.forM next) := by
  induction xs with
  | nil => exact pure ()
  | cons a xs ih => exact (h a).bind fun _ => ih

theorem fetch (call : StoreCall) (p : PrincipalHandle) : Candid (fetch call p) := by
  refine reads fun st fault => ?_
  cases st.record? p <;> nofun

theorem target (t : TeamHandle) : Candid (target t) := by
  refine reads fun st fault => ?_
  cases t.id.bind st.teamById? <;> nofun

end Plan.Candid

namespace MembershipService

open Plan

theorem addPlan_candid (p : PrincipalHandle) (t : TeamHandle) : Candid (addPlan p t) := by
  have drafted : Candid (Principals.addPlan p t) := by
    refine (Candid.moves _).bind fun _ => (Candid.fetch _ p).bind fun record => ?_
    refine (Candid.target t).bind fun team => ?_
    split
    · exact .pure _
    · exact (Candid.moves _).bind fun _ => .pure _
  exact (Candid.moves _).bind fun _ => drafted.bind fun _ => (Candid.moves _).bind fun _ => .pure _

theorem removePlan_candid (p : PrincipalHandle) (t : TeamHandle) : Candid (removePlan p t) := by
  have drafted : Candid (Principals.removePlan p t) := by
    refine (Candid.moves _).bind fun _ => (Candid.fetch _ p).bind fun record => ?_
    split
    · exact .pure _
    · split
      · exact .pure _
      · exact (Candid.moves _).bind fun _ => .pure _
  exact (Candid.moves _).bind fun _ => drafted.bind fun _ => (Candid.moves _).bind fun _ => .pure _

/-- What follows the entry of an operation that changes a membership. -/
theorem sealed_kept {α : Type} (x : Action α) (event : α → Event) : Sealed (do
    let a ← guarded x
    record (event a)
    return a) :=
  (Sealed.guarded x).bind fun _ => (Sealed.record _).bind fun _ => .pure _

section Entry

variable {s : Session} {p : PrincipalHandle} {t : TeamHandle}

theorem guarded_entered {α : Type} {call : StoreCall} {g : Unit → Action α}
    (hg : Sealed (g ())) (h : ∀ o ∈ s.outage, o.call ≠ call) :
    guarded (attempt call >>= g) s = (attempt call >>= g) s := by
  have passes : attempt call s = .ok () s := by
    unfold attempt
    cases ho : s.outage with
    | none => rfl
    | some o => exact if_neg (h o ho)
  rw [guarded_bind, bind_ok (guarded_ok passes), bind_ok passes, hg]

theorem guarded_add (h : ∀ o ∈ s.outage, o.call ≠ .addMembership) :
    guarded (add p t) s = add p t s := by
  refine guarded_entered ?_ h
  exact sealed_kept _ _

theorem guarded_remove (h : ∀ o ∈ s.outage, o.call ≠ .removeMembership) :
    guarded (remove p t) s = remove p t s := by
  refine guarded_entered ?_ h
  exact sealed_kept _ _

end Entry

end MembershipService

namespace Synchronization

open Plan

theorem joinPlan_candid (principal : String) (user : PrincipalHandle) (source : GroupSource)
    (group : String) : Candid (joinPlan principal user source group) := by
  have reached : Candid (GroupMapping.reachPlan source group) := nofun
  exact reached.bind fun teams => .forM (fun _ => (Candid.moves _).bind fun _ =>
    (MembershipService.addPlan_candid _ _).bind fun _ => .pure ()) teams

theorem runPlan_candid (user : PrincipalHandle) (source : GroupSource) (asserted : List String) :
    Candid (runPlan user source asserted) := by
  have found (teams : List Team) : Candid (stalePlan user.identifier source asserted teams) := nofun
  refine (Candid.fetch _ user).bind fun current => (found _).bind fun stale => ?_
  refine (Candid.forM (fun _ => (Candid.moves _).bind fun _ =>
    (MembershipService.removePlan_candid _ _).bind fun _ => .pure ()) stale).bind fun _ => ?_
  exact (Candid.forM (joinPlan_candid _ _ _) _).bind fun _ => Candid.fetch _ _

theorem synchronizePlan_candid (user : PrincipalHandle) (assertion : Assertion) :
    Candid (synchronizePlan user assertion) := by
  cases assertion with
  | loneText => exact .fail (by simp)
  | other value =>
    simp only [synchronizePlan]
    cases user.kind.userKind?.bind (·.source?) with
    | none => exact .fail (by simp)
    | some source => exact .fail (by simp)
  | groups names =>
    simp only [synchronizePlan]
    cases user.kind.userKind?.bind (·.source?) with
    | none => exact .fail (by simp)
    | some source =>
      exact (Candid.moves _).bind fun _ => (runPlan_candid user source _).bind fun _ =>
        (Candid.moves _).bind fun _ => .pure _

theorem synchronize_sealed (user : PrincipalHandle) (assertion : Assertion) :
    Sealed (synchronize user assertion) := by
  refine Sealed.bind ?_ fun _ => Sealed.bind ?_ fun source => Sealed.bind ?_ fun names => ?_
  · cases assertion with
    | loneText => exact .throw nofun
    | _ => exact .pure ()
  · unfold sourceOf
    split
    · exact .pure _
    · exact .throw nofun
  · cases assertion with
    | groups names => exact .pure names
    | _ => exact .throw nofun
  · exact (Sealed.record _).bind fun _ => (Sealed.guarded _).bind fun _ =>
      (Sealed.record _).bind fun _ => .pure _

end Synchronization

namespace Evaluation

open Plan

theorem somePlan_candid (name : String) (teams : List Team) : Candid (somePlan name teams) := by
  induction teams with
  | nil => exact .pure false
  | cons team rest ih =>
    refine (Candid.answers _ _).bind fun held => ?_
    split
    · exact .pure true
    · exact ih

theorem userPlan_candid (user : PrincipalHandle) (name : String) (includeTeams : Bool) :
    Candid (userPlan user name includeTeams) := by
  refine (Candid.fetch _ user).bind fun current => (Candid.answers _ _).bind fun held => ?_
  split
  · exact .pure true
  · split
    · exact .pure false
    · exact somePlan_candid name _

theorem teamPlan_candid (team : TeamHandle) (name : String) : Candid (teamPlan team name) := by
  unfold teamPlan
  split
  · exact .fail nofun
  · refine (Candid.answers _ _).bind fun found => ?_
    split
    · exact .fail nofun
    · exact .answers _ _

theorem effectivePlan_candid (principal : PrincipalHandle) : Candid (effectivePlan principal) :=
  (Candid.fetch _ principal).bind fun _ => (Candid.answers _ _).bind fun _ =>
    (Candid.answers _ _).bind fun _ => .pure _

end Evaluation

/-- A call of one of the services that change memberships or answer questions about permissions. -/
inductive ServiceCall where
  | add (principal : PrincipalHandle) (team : TeamHandle)
  | remove (principal : PrincipalHandle) (team : TeamHandle)
  | synchronize (user : PrincipalHandle) (assertion : Assertion)
  | userHas (user : PrincipalHandle) (name : String) (includeTeams : Bool)
  | teamHas (team : TeamHandle) (name : String)
  | keyHas (apiKey : PrincipalHandle) (name : String)
  | effective (principal : PrincipalHandle)

namespace ServiceCall

/-- Makes the call, whatever it answers. -/
def run : ServiceCall → Action Unit
  | .add p t => discard (MembershipService.add p t)
  | .remove p t => discard (MembershipService.remove p t)
  | .synchronize user assertion => discard (Synchronization.synchronize user assertion)
  | .userHas user name includeTeams => discard (Evaluation.userHas user name includeTeams)
  | .teamHas team name => discard (Evaluation.teamHas team name)
  | .keyHas apiKey name => discard (Evaluation.keyHas apiKey name)
  | .effective p => discard (Evaluation.effective p)

/-- The course of the call. -/
def plan : ServiceCall → Plan Unit
  | .add p t => MembershipService.addPlan p t >>= fun _ => pure ()
  | .remove p t => MembershipService.removePlan p t >>= fun _ => pure ()
  | .synchronize user assertion =>
    Synchronization.synchronizePlan user assertion >>= fun _ => pure ()
  | .userHas user name includeTeams =>
    Evaluation.userPlan user name includeTeams >>= fun _ => pure ()
  | .teamHas team name => Evaluation.teamPlan team name >>= fun _ => pure ()
  | .keyHas apiKey name => Evaluation.keyPlan apiKey name >>= fun _ => pure ()
  | .effective p => Evaluation.effectivePlan p >>= fun _ => pure ()

/-- The outage that does not hit a store call of the operation but stands for the operation. -/
def entry : ServiceCall → Option StoreCall
  | .add .. => some .addMembership
  | .remove .. => some .removeMembership
  | _ => none

theorem covers (call : ServiceCall) : Covers call.run call.plan := by
  cases call with
  | add p t => exact (MembershipService.add_covers p t).discard
  | remove p t => exact (MembershipService.remove_covers p t).discard
  | synchronize user assertion => exact (Synchronization.synchronize_covers user assertion).discard
  | userHas user name includeTeams => exact (Evaluation.userHas_covers user name _).discard
  | teamHas team name => exact (Evaluation.teamHas_covers team name).discard
  | keyHas apiKey name => exact (Evaluation.keyHas_covers apiKey name).discard
  | effective p => exact (Evaluation.effective_covers p).discard

theorem plan_candid (call : ServiceCall) : call.plan.Candid := by
  cases call with
  | add p t => exact (MembershipService.addPlan_candid p t).bind fun _ => .pure ()
  | remove p t => exact (MembershipService.removePlan_candid p t).bind fun _ => .pure ()
  | synchronize user assertion =>
    exact (Synchronization.synchronizePlan_candid user assertion).bind fun _ => .pure ()
  | userHas user name includeTeams =>
    exact (Evaluation.userPlan_candid user name _).bind fun _ => .pure ()
  | teamHas team name => exact (Evaluation.teamPlan_candid team name).bind fun _ => .pure ()
  | keyHas apiKey name =>
    exact ((Plan.Candid.fetch _ apiKey).bind fun _ => Evaluation.somePlan_candid name _).bind
      fun _ => .pure ()
  | effective p => exact (Evaluation.effectivePlan_candid p).bind fun _ => .pure ()

/-- Guarding a call once more changes nothing. -/
theorem guarded_run (call : ServiceCall) {s : Session}
    (h : ∀ o ∈ s.outage, call.entry ≠ some o.call) : guarded call.run s = call.run s := by
  have other (c : StoreCall) (hc : call.entry = some c) : ∀ o ∈ s.outage, o.call ≠ c :=
    fun o ho he => h o ho (hc.trans (congrArg some he.symm))
  cases call with
  | add p t => exact guarded_discard (MembershipService.guarded_add (other _ rfl))
  | remove p t => exact guarded_discard (MembershipService.guarded_remove (other _ rfl))
  | synchronize user assertion =>
    exact congrFun (Synchronization.synchronize_sealed user assertion).discard s
  | userHas user name includeTeams => exact congrFun (Sealed.guarded _).discard s
  | teamHas team name => exact congrFun (Sealed.guarded _).discard s
  | keyHas apiKey name => exact congrFun (Sealed.guarded _).discard s
  | effective p => exact congrFun (Sealed.guarded _).discard s

/-- A call ends as its course does under a guard. -/
theorem run_eq (call : ServiceCall) {s : Session} (h : ∀ o ∈ s.outage, call.entry ≠ some o.call) :
    call.run s = guarded (call.plan s.current).run s :=
  (call.guarded_run h).symm.trans (call.covers s)

theorem run_of_meets (call : ServiceCall) {s s' : Session} {f : Failure}
    (hs : ∀ o ∈ s.outage, call.entry ≠ some o.call)
    (h : Move.Meets s (call.plan s.current).moves f s') :
    call.run s = .error (Decision.reported f) (s'.leftBy f) :=
  (call.run_eq hs).trans (Decision.guarded_error (bind_error (Move.follow_of_meets h)))

theorem run_ne_store (call : ServiceCall) {s s' : Session} {fault : StoreFault}
    (hs : ∀ o ∈ s.outage, call.entry ≠ some o.call) : call.run s ≠ .error (.store fault) s' :=
  fun h => (Sealed.guarded (call.plan s.current).run).not_store ((call.run_eq hs).symm.trans h)

/-- A failure of the store that a service meets at any of its accesses comes out as the store being
unavailable, in the same words and once only, and what was uncommitted at that point is forgotten.
Any other failure, met at an access or found by the service itself, passes unchanged. So no failure
of the store comes out as such. -/
theorem store_failure_surfaces (call : ServiceCall) {s : Session}
    (hs : ∀ o ∈ s.outage, call.entry ≠ some o.call) :
    (∀ fault s', Move.Meets s (call.plan s.current).moves (.store fault) s' →
      call.run s = .error (.unavailable fault.message) { s' with current := s'.durable }) ∧
    (∀ f s', Move.Meets s (call.plan s.current).moves f s' → (∀ fault, f ≠ .store fault) →
      call.run s = .error f s') ∧
    (∀ s', Move.follow (call.plan s.current).moves s = .ok () s' →
      call.run s = settle (call.plan s.current).result s') ∧
    ∀ fault s', call.run s ≠ .error (.store fault) s' := by
  refine ⟨fun fault s' h => call.run_of_meets hs h, fun f s' h hf => ?_, fun s' h => ?_,
    fun fault s' => call.run_ne_store hs⟩
  · rw [call.run_of_meets hs h]
    cases f with
    | store fault => exact absurd rfl (hf fault)
    | _ => rfl
  · have ended : (call.plan s.current).run s = settle (call.plan s.current).result s' := bind_ok h
    rw [call.run_eq hs]
    cases hr : (call.plan s.current).result with
    | ok a => exact guarded_ok (ended.trans (by rw [hr]; rfl))
    | error f =>
      have failed : (call.plan s.current).run s = .error f s' := ended.trans (by rw [hr]; rfl)
      rw [Decision.guarded_error failed]
      cases f with
      | store fault => exact absurd hr (call.plan_candid s.current fault)
      | _ => rfl

/-- The driver gives out when the user is read in order to be added to a team; a team that was
created before and not yet committed is forgotten. -/
theorem store_failure_surfaces_locked :
    let crew : Team := ⟨Sample.id 5, "crew"⟩
    let s : Session := {
      durable := Sample.store
      current := { Sample.store with teams := Sample.store.teams ++ [crew] }
      outage := some ⟨.lock, .store .locked, 0⟩ }
    let call : ServiceCall := .add Sample.ann.handle crew.handle
    (∀ o ∈ s.outage, call.entry ≠ some o.call) ∧
      Move.Meets s (call.plan s.current).moves (.store .locked) s ∧
      call.run s = .error (.unavailable StoreFault.locked.message)
        { s with current := Sample.store } := by
  intro crew s call
  have other : ∀ o ∈ s.outage, call.entry ≠ some o.call := by simp [s, call, entry]
  have read :
      Move.Meets s (Plan.fetch .lock Sample.ann.handle s.current).moves (.store .locked) s :=
    ⟨[], .call .lock, _, rfl, rfl, rfl⟩
  have met : Move.Meets s (call.plan s.current).moves (.store .locked) s :=
    Plan.meets_left (Plan.meets_right rfl rfl (Plan.meets_left (Plan.meets_right rfl rfl
      (Plan.meets_left read))))
  exact ⟨other, met, (store_failure_surfaces call other).1 .locked s met⟩

end ServiceCall

end TeamAccess
