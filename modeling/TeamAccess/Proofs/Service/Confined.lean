import TeamAccess.Proofs.Confined
import TeamAccess.Proofs.Service.Synchronization

/-! # The operations on one principal

Adding and removing members, synchronizing and granting to a user are confined to the principal that
is handed in. They look at the rows of that principal and at rows that belong to nobody, and change
only the former.
-/

namespace TeamAccess

open TeamAccess.Action

variable {P : PrincipalKind × Uuid → Prop} {s t : Store} {p : PrincipalHandle}

/-- A handle that names one of some principals, or nobody. -/
def PrincipalHandle.Among (P : PrincipalKind × Uuid → Prop) (p : PrincipalHandle) : Prop :=
  ∀ id ∈ p.id, P (p.kind, id)

theorem PrincipalRecord.handle_among {r : PrincipalRecord} :
    r.handle.Among P ↔ P (r.kind, r.id) := by
  simp [PrincipalHandle.Among, PrincipalRecord.kind]

namespace Principals

/-- A principal that is read again is the one that was handed in. -/
theorem record_confines {x : Action PrincipalRecord} (hp : p.Among P)
    (hx : ∀ st, Reads st x ((st.record? p).elim (.error p.notFound) .ok)) :
    Confines P s t (fun r => P (r.kind, r.id)) x := by
  refine .reads (fun st _ => hx st) (fun s t h => by rw [h.record? hp]) fun st r _ hr => ?_
  cases hf : st.record? p with
  | none => simp [hf] at hr
  | some r' =>
    obtain rfl : r' = r := by simpa [hf] using hr
    exact Store.kind_of_record? hf ▸ hp r'.id (Store.id_of_record? hf)

theorem lock_confines (hp : p.Among P) :
    Confines P s t (fun r => P (r.kind, r.id)) (lock p) :=
  record_confines hp fun _ => ⟨_, lock_traces p⟩

theorem reload_confines (hp : p.Among P) :
    Confines P s t (fun r => P (r.kind, r.id)) (reload p) :=
  record_confines hp fun _ => ⟨_, reload_traces p⟩

theorem target_confined (team : TeamHandle) : Confined P s t (target team) :=
  .looks (fun _ => target_reads team) fun _ _ _ => rfl

theorem addToTeam_confined (hp : p.Among P) (team : TeamHandle) :
    Confined P s t (addToTeam p team) := by
  refine (Confined.attempt _).bind fun _ => (lock_confines hp).bind fun r hr => ?_
  refine (target_confined team).bind fun t => ?_
  split
  · exact .pure trivial
  · exact (Confined.update _ (fun _ _ h => h.join _) fun s =>
      .join_other s (not_not_intro hr)).bind fun _ => .pure trivial

theorem removeFromTeam_confined (hp : p.Among P) (team : TeamHandle) :
    Confined P s t (removeFromTeam p team) := by
  refine (Confined.attempt _).bind fun _ => (lock_confines hp).bind fun r hr => ?_
  split
  · exact .pure trivial
  · split
    · exact .pure trivial
    · exact (Confined.update _ (fun _ _ h => h.leave _) fun s =>
        .leave_other s (not_not_intro hr)).bind fun _ => .pure trivial

end Principals

namespace Permissions

theorem grantToUser_confined (hp : p.Among P) (permission : Permission) :
    Confined P s t (grantToUser p permission) := by
  refine (Confined.attempt _).bind fun _ => ?_
  split
  · exact .throw _
  · rename_i kind hk
    split
    · rename_i id hi _
      have own : P (.user kind, id) := hk ▸ hp id hi
      refine (Confined.reads (fun _ => .ask _) fun s t h => ?_).bind fun held => ?_
      · simp [h.grants ⟨kind, id, permission.id⟩ own]
      · split
        · exact .pure trivial
        · exact (Confined.update _ (fun _ _ h => h.grantUser _) fun s =>
            .grantUser_other s (not_not_intro own)).bind fun _ => .pure trivial
    · exact .pure trivial

end Permissions

namespace MembershipService

/-- A change of one edge that is committed and recorded. -/
theorem change_confined {x : Action Bool} (hx : Confined P s t x) (call : StoreCall)
    (event : Bool → Event) :
    Confined P s t (do
      attempt call
      let changed ← guarded do
        let changed ← x
        commit
        return changed
      record (event changed)
      return changed) := by
  have committed : Confined P s t (do
      let changed ← x
      commit
      return changed) :=
    hx.bind fun _ => Confined.commit.bind fun _ => .pure trivial
  exact (Confined.attempt call).bind fun _ => committed.guarded.bind fun _ =>
    (Confined.record _).bind fun _ => .pure trivial

theorem add_confined (hp : p.Among P) (team : TeamHandle) : Confined P s t (add p team) :=
  change_confined (Principals.addToTeam_confined hp team) _ _

theorem remove_confined (hp : p.Among P) (team : TeamHandle) : Confined P s t (remove p team) :=
  change_confined (Principals.removeFromTeam_confined hp team) _ _

end MembershipService

namespace GroupMapping

theorem groupsForTeam_confined (source : GroupSource) (team : Team) :
    Confined P s t (groupsForTeam source team.handle) :=
  .looks (fun _ => groupsForTeam_reads source team) fun _ _ _ => by cases source <;> rfl

theorem teamsForGroup_confined (source : GroupSource) (group : String) :
    Confined P s t (teamsForGroup source group) := by
  cases source with
  | ldap =>
    refine (Confined.looks (fun _ => Groups.teamsForDn_reads group) fun _ _ _ => rfl).bind
      fun teams => ?_
    dsimp only
    split
    · exact (Confined.record _).bind fun _ => .pure trivial
    · exact .pure trivial
  | oidc =>
    refine (Confined.looks (fun _ => Groups.find?_reads group) fun _ _ _ => rfl).bind fun g => ?_
    cases g with
    | none => exact (Confined.record _).bind fun _ => .pure trivial
    | some g => exact Confined.looks (fun _ => Groups.teamsForGroup_reads g) fun _ _ _ => rfl

end GroupMapping

namespace Synchronization

theorem isStale_confined (principal : String) (source : GroupSource) (asserted : List String)
    (team : Team) : Confined P s t (isStale principal source asserted team) := by
  refine (GroupMapping.groupsForTeam_confined source team).bind fun mapped => ?_
  split
  · exact (Confined.record _).bind fun _ => .pure trivial
  · exact (Confined.forM fun _ _ => .record _).bind fun _ => .pure trivial

theorem leaveAll_confined (principal : String) (hp : p.Among P) (source : GroupSource)
    (teams : List Team) : Confined P s t (leaveAll principal p source teams) :=
  .forM fun team _ => (Confined.record _).bind fun _ =>
    (MembershipService.remove_confined hp team.handle).discard

theorem joinGroup_confined (principal : String) (hp : p.Among P) (source : GroupSource)
    (group : String) : Confined P s t (joinGroup principal p source group) :=
  (GroupMapping.teamsForGroup_confined source group).bind fun _ =>
    Confined.forM fun team _ => (Confined.record _).bind fun _ =>
      (MembershipService.add_confined hp team.handle).discard

theorem run_confined (hp : p.Among P) (source : GroupSource) (asserted : List String) :
    Confined P s t (run p source asserted) := by
  refine (Principals.reload_confines hp).bind fun current hc => ?_
  have among : current.handle.Among P := PrincipalRecord.handle_among.mpr hc
  refine (Confined.filterM fun team _ => isStale_confined _ _ _ team).bind fun stale => ?_
  refine (leaveAll_confined _ among source stale).bind fun _ => ?_
  refine (Confined.forM fun group _ => joinGroup_confined _ among source group).bind fun _ => ?_
  exact (Principals.reload_confines among).confined

theorem refuseLoneText_confined (assertion : Assertion) :
    Confined P s t assertion.refuseLoneText := by
  cases assertion with
  | loneText => exact .throw _
  | _ => exact .pure trivial

theorem synchronize_confined (hp : p.Among P) (assertion : Assertion) :
    Confined P s t (synchronize p assertion) := by
  have source : Confined P s t (sourceOf p.kind) := by
    unfold sourceOf
    split
    · exact .pure trivial
    · exact .throw _
  have names : Confined P s t assertion.names := by
    cases assertion with
    | groups names => exact .pure trivial
    | _ => exact .throw _
  refine (refuseLoneText_confined assertion).bind fun _ => source.bind fun source => ?_
  refine names.bind fun names => ?_
  refine (Confined.record _).bind fun _ => (run_confined hp source _).guarded.bind fun r => ?_
  exact (Confined.record _).bind fun _ => .pure trivial

end Synchronization

end TeamAccess
