import TeamAccess.Proofs.Registry.Reads
import TeamAccess.Proofs.Store.Distinct
import TeamAccess.Proofs.Store.Edges

/-! # Writing

An operation that adds or changes rows answers and leaves other rows in its session, unless an
access fails or a rule of a table is broken. A new row breaks no rule if its name is not taken: its
identifier is none that any row holds.
-/

namespace TeamAccess

open TeamAccess.Action

namespace Action

variable {α β : Type} {st st' st'' : Store} {x : Action α} {a : α} {b : β}

/-- In every session with these rows that no outage hits, an action answers and leaves other rows.
-/
def Writes (st : Store) (act : Action α) (a : α) (st' : Store) : Prop :=
  ∀ s : Session, s.outage = none → s.current = st → act s = .ok a { s with current := st' }

namespace Writes

theorem pure (a : α) : Writes st (pure a) a st := by
  rintro s - rfl
  rfl

theorem reads (hm : st.missing = []) (hx : Reads st x (.ok a)) : Writes st x a st := by
  rintro s ho rfl
  exact hx.calm_ok ⟨ho, hm⟩

theorem attempt (call : StoreCall) : Writes st (attempt call) () st := by
  rintro s ho rfl
  have ha : Action.attempt call s = .ok () s := by simp [Action.attempt, ho]
  exact ha

theorem change {tables : List Table} {f : Store → Except StoreFault (α × Store)}
    (hm : st.missing = []) (hf : f st = .ok (a, st')) : Writes st (change tables f) a st' := by
  rintro s ho rfl
  have hr : require tables s = .ok () s := probe_calm ⟨ho, hm⟩ (.read tables)
  refine (bind_ok hr).trans ?_
  simp only [hf]

theorem ask (f : Store → α) : Writes st (ask f) (f st) st := by
  rintro s - rfl
  rfl

theorem update {tables : List Table} (hm : st.missing = []) (f : Store → Store) :
    Writes st (update tables f) () (f st) := .change hm rfl

theorem bind {g : α → Action β} (hx : Writes st x a st') (hg : Writes st' (g a) b st'') :
    Writes st (x >>= g) b st'' := by
  intro s ho hs
  exact (bind_ok (hx s ho hs)).trans (hg _ ho rfl)

end Writes

end Action

variable {st : Store} {name : String} {id : Uuid}

theorem Store.teamById?_freshId (st : Store) : st.teamById? st.freshId = none := by
  refine List.find?_eq_none.mpr fun t ht he => st.freshId_not_mem ?_
  have hm : st.freshId ∈ st.teams.map (·.id) :=
    List.mem_map.mpr ⟨t, ht, of_decide_eq_true he⟩
  simp [usedIds, hm]

theorem Store.freshId_no_member (st : Store) (kind : PrincipalKind) (team : Uuid) :
    ⟨kind, st.freshId, team⟩ ∉ st.memberships := by
  intro he
  have hm : st.freshId ∈ st.memberships.map (·.principal) := List.mem_map.mpr ⟨_, he, rfl⟩
  exact st.freshId_not_mem (by simp [usedIds, hm])

section

variable (hm : st.missing = [])

include hm

theorem Permissions.create_writes (hn : st.permission? name = none) (description : Option String) :
    Writes st (create name description) ⟨st.freshId, name, description⟩
      { st with permissions := st.permissions ++ [⟨st.freshId, name, description⟩] } := by
  refine (Writes.attempt _).bind (.change hm ?_)
  simp [Store.addPermission, hn]

theorem Teams.create_writes (hn : st.team? name = none) :
    Writes st (create name) ⟨⟨st.freshId, name⟩, []⟩
      { st with teams := st.teams ++ [⟨st.freshId, name⟩] } := by
  refine (Writes.attempt _).bind (.bind (.change hm ?_) (.pure _))
  simp [Store.addTeam, Store.insertTeam, hn, Store.teamById?_freshId]

omit hm in
theorem Teams.rename_reads (hi : st.teamById? id = none) :
    Reads st (rename id name) (.ok none) := by
  refine (Reads.attempt _).bind ((Reads.query _ _).bind ((Teams.loaded_reads _).bind ?_))
  rw [hi]
  exact .pure none

theorem Teams.rename_writes {t : Team} (hi : st.teamById? id = some t)
    (hn : ∀ t ∈ st.teams, t.name = name → t.id = id) :
    Writes st (rename id name) (some { st.teamRecord t with team := ⟨id, name⟩ })
      { st with teams := st.teams.map fun t => if t.id = id then ⟨id, name⟩ else t } := by
  refine (Writes.attempt _).bind (.bind (.reads hm (.query _ _)) ?_)
  refine .bind (.reads hm (Teams.loaded_reads _)) ?_
  rw [hi]
  have renamed : st.renameTeam id name = .ok ((),
      { st with teams := st.teams.map fun t => if t.id = id then ⟨id, name⟩ else t }) := by
    simpa [Store.renameTeam] using hn
  exact .bind (.change hm renamed) (.pure _)

theorem Principals.createUser_writes {profile : Profile}
    (hn : st.user? profile.kind name = none) :
    Writes st (createUser name profile) ⟨⟨st.freshId, name, profile⟩, [], []⟩
      { st with users := st.users ++ [⟨st.freshId, name, profile⟩] } := by
  refine (Writes.attempt _).bind (.bind (.change hm ?_) (.pure _))
  simp [Store.addUser, hn]

theorem Groups.create_writes (hn : st.oidcGroup? name = none) :
    Writes st (create name) ⟨st.freshId, name⟩
      { st with oidcGroups := st.oidcGroups ++ [⟨st.freshId, name⟩] } := by
  refine (Writes.attempt _).bind (.change hm ?_)
  simp [Store.addOidcGroup, hn]

theorem Principals.createApiKey_writes {key : String} (hn : st.apiKey? key = none) (t : Team) :
    Writes st (createApiKey key [t]) ⟨⟨st.freshId, key⟩, [t]⟩
      { st with
        apiKeys := st.apiKeys ++ [⟨st.freshId, key⟩]
        memberships := st.memberships ++ [⟨.apiKey, st.freshId, t.id⟩] } := by
  refine (Writes.attempt _).bind (.bind (.reads hm (.require _)) (.bind (.change hm ?_) (.pure _)))
  simp [Store.addApiKey, hn, Store.addMemberships, Store.freshId_no_member, Except.map]

section Grants

variable (p : Permission)

theorem Permissions.grantToTeam_writes (t : Team) :
    Writes st (grantToTeam t.handle p) (!decide (⟨t.id, p.id⟩ ∈ st.teamGrants))
      (st.grantTeam ⟨t.id, p.id⟩) := by
  refine (Writes.attempt _).bind (.bind (.ask _) ?_)
  by_cases he : ⟨t.id, p.id⟩ ∈ st.teamGrants
  · simp only [Store.grantTeam, he, List.contains_iff_mem, if_true, decide_true, Bool.not_true]
    exact .pure false
  · simp only [he, List.contains_iff_mem, if_false, decide_false, Bool.not_false]
    exact .bind (.update hm _) (.pure true)

theorem Permissions.revokeFromTeam_writes (t : Team) :
    Writes st (revokeFromTeam t.handle p) (decide (⟨t.id, p.id⟩ ∈ st.teamGrants))
      (st.revokeTeam ⟨t.id, p.id⟩) := by
  refine (Writes.attempt _).bind (.bind (.ask _) ?_)
  by_cases he : ⟨t.id, p.id⟩ ∈ st.teamGrants
  · simp only [he, List.contains_eq_mem, decide_true, Bool.not_true, Bool.false_eq_true, if_false]
    exact .bind (.update hm _) (.pure true)
  · rw [Store.revokeTeam_of_not_mem he]
    simp only [he, List.contains_eq_mem, decide_false, Bool.not_false, if_true]
    exact .pure false

theorem Permissions.grantToUser_writes (u : User) :
    Writes st (grantToUser u.handle p) (!decide (⟨u.kind, u.id, p.id⟩ ∈ st.userGrants))
      (st.grantUser ⟨u.kind, u.id, p.id⟩) := by
  refine (Writes.attempt _).bind (.bind (.ask _) ?_)
  by_cases he : ⟨u.kind, u.id, p.id⟩ ∈ st.userGrants
  · simp only [Store.grantUser, he, List.contains_iff_mem, if_true, decide_true, Bool.not_true]
    exact .pure false
  · simp only [he, List.contains_iff_mem, if_false, decide_false, Bool.not_false]
    exact .bind (.update hm _) (.pure true)

end Grants

end

end TeamAccess
