import TeamAccess.Proofs.Authorization.Decision
import TeamAccess.Proofs.Reachable
import TeamAccess.Proofs.Registry.Writes
import TeamAccess.Proofs.Service.Local
import TeamAccess.Proofs.Service.Membership

/-! # Startup

The bootstrap adds what it does not find: the permission to administer the service, the managed user
that the settings name, and the grant between the two. What it finds it leaves as it is, so that it
may run as often as one likes.
-/

namespace TeamAccess

open TeamAccess.Action

namespace Action

variable {α β : Type} {st st' st'' : Store} {x : Action α} {a : α} {b : β}
  {notes more : List Event}

/-- In every session with these rows that no outage hits, an action answers, leaves other rows and
records some events. -/
def Enters (st : Store) (act : Action α) (a : α) (st' : Store) (notes : List Event) : Prop :=
  ∀ s : Session, s.outage = none → s.current = st →
    act s = .ok a { s with current := st', events := s.events ++ notes }

namespace Enters

theorem of_writes (h : Writes st x a st') : Enters st x a st' [] := by
  intro s ho hs
  rw [h s ho hs, List.append_nil]

theorem reads (hm : st.missing = []) (h : Reads st x (.ok a)) : Enters st x a st [] :=
  of_writes (.reads hm h)

theorem record (e : Event) : Enters st (record e) () st [e] := by
  rintro s - rfl
  rfl

theorem bind {g : α → Action β} (hx : Enters st x a st' notes) (hg : Enters st' (g a) b st'' more) :
    Enters st (x >>= g) b st'' (notes ++ more) := by
  intro s ho hs
  have next := hg { s with current := st', events := s.events ++ notes } ho rfl
  rw [List.append_assoc] at next
  exact (bind_ok (hx s ho hs)).trans next

theorem discard (hx : Enters st x a st' notes) : Enters st (discard x) () st' notes :=
  fun s ho hs => map_ok (hx s ho hs)

/-- What is committed at the end is durable. -/
theorem commit {x : Action Unit} (hx : Enters st x () st' notes) :
    Moves st (do x; commit) () st' notes := by
  intro keys events
  exact (bind_ok (hx _ rfl rfl)).trans (commit_calm rfl)

end Enters

/-- What changes nothing once changes nothing however often it is done. -/
theorem Moves.replicate {f : α → Action Unit} (h : Moves st (f a) () st []) (n : Nat) :
    Moves st ((List.replicate n a).forM f) () st [] := by
  induction n with
  | zero => exact .pure ()
  | succ n ih => exact h.bind ih

end Action

namespace Store

variable {s : Store}

theorem permission?_added {q : Permission} (h : s.permission? q.name = none) :
    permission? { s with permissions := s.permissions ++ [q] } q.name = some q := by
  unfold permission? at h ⊢
  rw [List.find?_append, h]
  simp

theorem user?_added {u : User} (h : s.user? u.kind u.username = none) :
    user? { s with users := s.users ++ [u] } u.kind u.username = some u := by
  unfold user? at h ⊢
  rw [List.find?_append, h]
  simp

/-- A new identifier is one that no membership and no grant names. -/
theorem freshId_unused (s : Store) :
    (∀ e ∈ s.memberships, e.principal ≠ s.freshId) ∧ ∀ g ∈ s.userGrants, g.user ≠ s.freshId := by
  constructor
  · rintro e he hi
    have used : s.freshId ∈ s.memberships.map (·.principal) := List.mem_map.mpr ⟨e, he, hi⟩
    exact s.freshId_not_mem (by simp [usedIds, used])
  · rintro g hg hi
    have used : s.freshId ∈ s.userGrants.map (·.user) := List.mem_map.mpr ⟨g, hg, hi⟩
    exact s.freshId_not_mem (by simp [usedIds, used])

end Store

namespace Bootstrap

variable {s s' : Store} {q : Permission} {u : User} {username : String}

/-- The permission to administer the service is stored, the only one that may have been added. -/
structure Permits (s s' : Store) (q : Permission) : Prop where
  found : s'.permission? accessManagement = some q
  rows : s.permission? accessManagement = some q ∧ s'.permissions = s.permissions ∨
    s.permission? accessManagement = none ∧ q.description = some description ∧
      s'.permissions = s.permissions ++ [q]

/-- The managed user of a username is stored, the only one that may have been added; one that is new
has had neither teams nor grants. -/
structure Seats (s s' : Store) (username : String) (u : User) : Prop where
  found : s'.user? .managed username = some u
  rows : s.user? .managed username = some u ∧ s'.users = s.users ∨
    s.user? .managed username = none ∧ u.profile = blankProfile ∧ s'.users = s.users ++ [u] ∧
      (∀ e ∈ s.memberships, e.principal ≠ u.id) ∧ ∀ g ∈ s.userGrants, g.user ≠ u.id

/-- A grant is stored, the only one that may have been added. -/
def Holds (s s' : Store) (g : UserGrant) : Prop :=
  g ∈ s.userGrants ∧ s'.userGrants = s.userGrants ∨
    g ∉ s.userGrants ∧ s'.userGrants = s.userGrants ++ [g]

theorem ensurePermission_reads (h : s.permission? accessManagement = some q) :
    Reads s ensurePermission (.ok q) := by
  refine (Permissions.find?_reads _).bind ?_
  rw [h]
  exact .pure q

theorem ensureAdmin_reads (h : s.user? .managed username = some u) :
    Reads s (ensureAdmin username) (.ok (s.userRecord u)) := by
  refine .bind ⟨_, Principals.findUser?_traces .managed username⟩ ?_
  rw [h]
  exact .pure _

section

variable (hm : s.missing = []) (hd : s.Distinct)

include hm hd

theorem ensurePermission_enters : ∃ q permissions notes,
    Enters s ensurePermission q { s with permissions } notes ∧
      Store.Distinct { s with permissions } ∧ Permits s { s with permissions } q := by
  cases hq : s.permission? accessManagement with
  | some q =>
    exact ⟨q, s.permissions, [], .reads hm (ensurePermission_reads hq), hd, hq, .inl ⟨hq, rfl⟩⟩
  | none =>
    let q : Permission := ⟨s.freshId, accessManagement, some description⟩
    have added : s.addPermission accessManagement (some description) =
        .ok (q, { s with permissions := s.permissions ++ [q] }) := by
      simp [Store.addPermission, hq, q]
    have created : Enters s ensurePermission q { s with permissions := s.permissions ++ [q] }
        ([] ++ ([] ++ ([.bootstrapPermission accessManagement] ++ []))) := by
      refine (Enters.reads hm (Permissions.find?_reads _)).bind ?_
      rw [hq]
      exact (Enters.of_writes (Permissions.create_writes hm hq _)).bind
        ((Enters.record _).bind (.of_writes (.pure q)))
    exact ⟨q, _, _, created, hd.addPermission added, Store.permission?_added hq,
      .inr ⟨hq, rfl, rfl⟩⟩

theorem ensureAdmin_enters (username : String) : ∃ record users notes,
    Enters s (ensureAdmin username) record { s with users } notes ∧
      Store.Distinct { s with users } ∧ Seats s { s with users } username record.user := by
  cases hu : s.user? .managed username with
  | some u =>
    exact ⟨s.userRecord u, s.users, [], .reads hm (ensureAdmin_reads hu), hd, hu, .inl ⟨hu, rfl⟩⟩
  | none =>
    let u : User := ⟨s.freshId, username, blankProfile⟩
    have added : s.addUser username blankProfile =
        .ok (u, { s with users := s.users ++ [u] }) := by
      simp [Store.addUser, hu, u, blankProfile, Profile.kind]
    have created : Enters s (ensureAdmin username) ⟨u, [], []⟩
        { s with users := s.users ++ [u] } ([] ++ ([] ++ ([.bootstrapAdmin username] ++ []))) := by
      refine (Enters.reads hm ⟨_, Principals.findUser?_traces .managed username⟩).bind ?_
      rw [hu]
      have written : Writes s (Principals.createUser username blankProfile) ⟨u, [], []⟩
          { s with users := s.users ++ [u] } := Principals.createUser_writes hm hu
      exact (Enters.of_writes written).bind ((Enters.record _).bind (.of_writes (.pure _)))
    exact ⟨⟨u, [], []⟩, _, _, created, hd.addUser added, Store.user?_added hu,
      .inr ⟨hu, rfl, rfl, s.freshId_unused⟩⟩

end

theorem grant_holds (s : Store) (g : UserGrant) : Holds s (s.grantUser g) g := by
  unfold Holds Store.grantUser
  by_cases hg : g ∈ s.userGrants
  · exact .inl ⟨hg, by rw [if_pos hg]⟩
  · exact .inr ⟨hg, by rw [if_neg hg]⟩

/-- What the bootstrap leaves of the rows: nothing more than the permission to administer the
service, the managed user of the username, if there is one, and the grant between them. -/
structure Seeds (s s' : Store) (admin : Option String) : Prop where
  permission : ∃ q, Permits s s' q ∧
    ∀ username, admin = some username → username ≠ "" →
      ∃ u, Seats s s' username u ∧ Holds s s' ⟨.managed, u.id, q.id⟩
  rows : s' = { s with
    permissions := s'.permissions
    users := s'.users
    userGrants := s'.userGrants }
  nobody : admin = none ∨ admin = some "" → s'.users = s.users ∧ s'.userGrants = s.userGrants

theorem named_iff {admin : Option String} :
    admin.filter (· != "") = some username ↔ admin = some username ∧ username ≠ "" := by
  simp [Option.filter_eq_some_iff]

theorem nobody_iff {admin : Option String} :
    admin.filter (· != "") = none ↔ admin = none ∨ admin = some "" := by
  cases admin <;> simp

theorem ensure_moves (hm : s.missing = []) (hd : s.Distinct) (admin : Option String) :
    ∃ s' notes, Moves s (ensure admin) () s' notes ∧ Seeds s s' admin ∧ s'.Distinct := by
  obtain ⟨q, permissions, notes, permitted, hd₁, hq⟩ := ensurePermission_enters hm hd
  cases ha : admin.filter (· != "") with
  | none =>
    have prepared : Enters s (prepare admin) () { s with permissions } (notes ++ []) := by
      rw [prepare, ha]
      exact permitted.bind (.of_writes (.pure ()))
    refine ⟨_, _, ensure_eq admin ▸ prepared.commit, ⟨⟨q, hq, ?_⟩, rfl, fun _ => ⟨rfl, rfl⟩⟩, hd₁⟩
    intro username hn hne
    simp [hn, hne] at ha
  | some username =>
    obtain ⟨record, users, more, seated, hd₂, hu⟩ :=
      ensureAdmin_enters (s := { s with permissions }) hm hd₁ username
    let g : UserGrant := ⟨.managed, record.user.id, q.id⟩
    let seats : Store := { s with permissions, users }
    have granted : Writes seats (Permissions.grantToUser record.user.handle q)
        (!decide (g ∈ s.userGrants)) (seats.grantUser g) := by
      have managed := Store.kind_of_user? hu.found
      have writes := @Permissions.grantToUser_writes seats hm q record.user
      rwa [managed] at writes
    have prepared : Enters s (prepare admin) () (seats.grantUser g) (notes ++ (more ++ [])) := by
      rw [prepare, ha]
      exact permitted.bind (seated.bind (Enters.of_writes granted).discard)
    have moves : Moves s (ensure admin) () (seats.grantUser g) (notes ++ (more ++ [])) :=
      ensure_eq admin ▸ prepared.commit
    have rows : seats.grantUser g =
        { s with permissions, users, userGrants := (seats.grantUser g).userGrants } :=
      Store.grantUser_rows seats g
    have holds : Holds s (seats.grantUser g) g := grant_holds seats g
    have distinct := hd₂.grantUser g
    obtain ⟨hn, hne⟩ := named_iff.mp ha
    generalize (seats.grantUser g).userGrants = grants at rows
    rw [rows] at moves holds distinct
    refine ⟨_, _, moves, ⟨⟨q, ⟨hq.found, hq.rows⟩, fun name hname _ => ?_⟩, rfl, fun hno => ?_⟩,
      distinct⟩
    · obtain rfl : username = name := Option.some.inj (hn.symm.trans hname)
      exact ⟨record.user, ⟨hu.found, hu.rows⟩, holds⟩
    · rw [nobody_iff.mpr hno] at ha
      cases ha

/-- Where the permission, the user and the grant are stored, there is nothing to do. -/
theorem ensure_moves_again {admin : Option String} (hm : s.missing = [])
    (hq : s.permission? accessManagement = some q)
    (hu : ∀ username, admin = some username → username ≠ "" →
      ∃ u, s.user? .managed username = some u ∧ ⟨.managed, u.id, q.id⟩ ∈ s.userGrants) :
    Moves s (ensure admin) () s [] := by
  have permitted : Enters s ensurePermission q s [] := .reads hm (ensurePermission_reads hq)
  have prepared : Enters s (prepare admin) () s [] := by
    unfold prepare
    refine permitted.bind ?_
    cases ha : admin.filter (· != "") with
    | none => exact .of_writes (.pure ())
    | some username =>
      obtain ⟨hn, hne⟩ := named_iff.mp ha
      obtain ⟨u, hf, hg⟩ := hu username hn hne
      have granted := @Permissions.grantToUser_writes s hm q u
      rw [Store.kind_of_user? hf, Store.grantUser, if_pos hg] at granted
      exact (Enters.reads hm (ensureAdmin_reads hf)).bind (Enters.of_writes granted).discard
  exact ensure_eq admin ▸ prepared.commit

theorem Holds.mem {g : UserGrant} (h : Holds s s' g) : g ∈ s'.userGrants := by
  obtain ⟨hg, he⟩ | ⟨-, he⟩ := h
  · exact he ▸ hg
  · simp [he]

/-- The bootstrap makes the named user an administrator, adds only what is missing for that and
changes no other row; after it, it changes nothing any more, however often it runs. -/
theorem ensure_seeds (h : Reachable s) (hc : s.isComplete = true) (admin : Option String) :
    ∃ s' notes, Moves s (ensure admin) () s' notes ∧ Seeds s s' admin ∧
      (∀ username, admin = some username → username ≠ "" →
        ∃ u, Seats s s' username u ∧ s'.DirectlyGranted u accessManagement ∧
          Moves s' (Decision.authorize (some u.handle) [accessManagement]) .allow s' []) ∧
      ∀ n, Moves s' ((List.replicate n admin).forM ensure) () s' [] := by
  have hm := List.isEmpty_iff.mp hc
  obtain ⟨s', notes, moves, seeds, distinct⟩ := ensure_moves hm h.distinct admin
  have hm' : s'.missing = [] := by
    rw [seeds.rows]
    exact hm
  obtain ⟨q, hq, seated⟩ := seeds.permission
  refine ⟨s', notes, moves, seeds, fun username hn hne => ?_, fun n => ?_⟩
  · obtain ⟨u, hu, hg⟩ := seated username hn hne
    obtain ⟨hmem, hk, -⟩ := distinct.user?_eq_some_iff.mp hu.found
    obtain ⟨hp, called⟩ := Store.stored_of_permission? hq.found
    have direct : s'.DirectlyGranted u accessManagement := ⟨q, hp, called, hk ▸ hg.mem⟩
    refine ⟨u, hu, direct, fun keys events => ?_⟩
    rw [List.append_nil]
    exact (Decision.authorize_calm (Session.on_calm hm') rfl distinct u.handle
      [accessManagement]).1 ⟨_, by simp, u, hmem, rfl, rfl, .inl direct⟩
  · refine Moves.replicate (ensure_moves_again hm' hq.found fun username hn hne => ?_) n
    obtain ⟨u, hu, hg⟩ := seated username hn hne
    exact ⟨u, hu.found, hg.mem⟩

/-- In the small store an administrator is appointed beside the directory user, and the permission
stays the one that it was. -/
theorem ensure_seeds_root :
    ∃ s' notes u, Moves Sample.store (ensure (some "root")) () s' notes ∧
      s'.permissions = Sample.store.permissions ∧ s'.users = [Sample.ann, u] ∧
      u.profile = blankProfile ∧ s'.DirectlyGranted u accessManagement ∧
      Moves s' ([some "root", some "root"].forM ensure) () s' [] := by
  obtain ⟨s', notes, moves, seeds, appointed, again⟩ :=
    ensure_seeds Sample.reachable rfl (some "root")
  obtain ⟨u, seated, direct, -⟩ := appointed "root" rfl (by decide)
  have known : Sample.store.permission? accessManagement = some Sample.management := by decide
  have unknown : Sample.store.user? .managed "root" = none := by decide
  obtain ⟨q, ⟨-, permissions⟩, -⟩ := seeds.permission
  refine ⟨s', notes, u, moves, ?_, ?_, ?_, direct, again 2⟩
  · rcases permissions with ⟨-, he⟩ | ⟨hn, -⟩
    · exact he
    · cases known.symm.trans hn
  all_goals
    rcases seated.rows with ⟨hu, -⟩ | ⟨-, blank, users, -⟩
    · cases unknown.symm.trans hu
  · exact users
  · exact blank

end Bootstrap

end TeamAccess
