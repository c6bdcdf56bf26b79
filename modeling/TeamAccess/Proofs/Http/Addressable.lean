import TeamAccess.Proofs.Http.Address
import TeamAccess.Proofs.Http.Ending
import TeamAccess.Proofs.Service.Synchronization

/-! # What a path can name

Permissions and users are named by a segment of a path. A request that carries the names of stored
entities, each encoded as one segment, reaches them and does its deed exactly if no name holds a
slash; otherwise no route fits it and nothing happens.
-/

namespace TeamAccess

open TeamAccess.Action Text

namespace UserKind

theorem text_plain (k : UserKind) : k.text ≠ "" ∧ '/' ∉ k.text.toList := by
  cases k <;> decide

/-- Directory and provider users are synchronized. -/
theorem exists_source {k : UserKind} (h : k ≠ .managed) : ∃ source, k.source? = some source := by
  cases k with
  | managed => exact absurd rfl h
  | ldap => exact ⟨.ldap, rfl⟩
  | oidc => exact ⟨.oidc, rfl⟩

end UserKind

namespace Http

variable {st : Store} {keys : KeySupply} {events : List Event} {t : Team} {p : Permission}
  {u : User} {settings : Settings} {now : Int} {caller : Option PrincipalRecord}

/-- What is done to entities that a path names. -/
inductive Deed where
  | grantTeam (t : Team) (p : Permission)
  | revokeTeam (t : Team) (p : Permission)
  | grantUser (u : User) (p : Permission)
  | join (u : User) (t : Team)
  | leave (u : User) (t : Team)
  | synchronize (u : User) (groups : List String)

namespace Deed

variable {d : Deed} {id : String}

/-- The method of a deed. -/
def method : Deed → String
  | .grantTeam .. | .grantUser .. | .join .. => "PUT"
  | .revokeTeam .. | .leave .. => "DELETE"
  | .synchronize .. => "POST"

/-- The endpoint of a deed. -/
def endpoint : Deed → Endpoint
  | .grantTeam .. => .grantTeamPermission
  | .revokeTeam .. => .revokeTeamPermission
  | .grantUser .. => .grantUserPermission
  | .join .. => .addUserToTeam
  | .leave .. => .removeUserFromTeam
  | .synchronize .. => .synchronizeUser

theorem endpoint_isAdmin (d : Deed) :
    ∃ r ∈ Route.all, r.isAdmin = true ∧ r.endpoint = d.endpoint := by
  cases d <;> simp only [endpoint] <;> decide

/-- The segments of the path of a deed, a team being named by `id`. -/
def segments (id : String) : Deed → List String
  | .grantTeam _ p | .revokeTeam _ p => ["v1", "admin", "teams", id, "permissions", p.name]
  | .grantUser u p => ["v1", "admin", "users", u.kind.text, u.username, "permissions", p.name]
  | .join u _ | .leave u _ => ["v1", "admin", "users", u.kind.text, u.username, "teams", id]
  | .synchronize u _ => ["v1", "admin", "users", u.kind.text, u.username, "sync"]

/-- The team of a deed. -/
def team? : Deed → Option Team
  | .grantTeam t _ | .revokeTeam t _ | .join _ t | .leave _ t => some t
  | .grantUser .. | .synchronize .. => none

/-- The names of permissions and users in the path of a deed. -/
def names : Deed → List String
  | .grantTeam _ p | .revokeTeam _ p => [p.name]
  | .grantUser u p => [u.username, p.name]
  | .join u _ | .leave u _ | .synchronize u _ => [u.username]

/-- What a deed is done to is stored. -/
def Stored (st : Store) : Deed → Prop
  | .grantTeam t p | .revokeTeam t p => t ∈ st.teams ∧ p ∈ st.permissions
  | .grantUser u p => u ∈ st.users ∧ p ∈ st.permissions
  | .join u t | .leave u t => u ∈ st.users ∧ t ∈ st.teams
  | .synchronize u _ => u ∈ st.users ∧ u.kind ≠ .managed

/-- The body of a request holds what a deed asks for. -/
def Carried (request : Request) : Deed → Prop
  | .synchronize _ groups => ∃ payload, Server.readPayload request = .ok payload ∧
      Call.ofObject payload Call.groupsField = .ok groups
  | _ => True

/-- The store after a deed. -/
def done (st : Store) : Deed → Store
  | .grantTeam t p => st.grantTeam ⟨t.id, p.id⟩
  | .revokeTeam t p => st.revokeTeam ⟨t.id, p.id⟩
  | .grantUser u p => st.grantUser ⟨u.kind, u.id, p.id⟩
  | .join u t => st.join (u.edge t)
  | .leave u t => st.leave (u.edge t)
  | .synchronize u groups =>
    u.kind.source?.elim st (st.synchronized u · (Synchronization.firsts groups))

/-- The call that a deed is done by. -/
def call : Deed → Call
  | .grantTeam t p => .grantTeamPermission t.id p.name
  | .revokeTeam t p => .revokeTeamPermission t.id p.name
  | .grantUser u p => .grantUserPermission (.user u.kind) u.username p.name
  | .join u t => .addUserToTeam (.user u.kind) u.username t.id
  | .leave u t => .removeUserFromTeam (.user u.kind) u.username t.id
  | .synchronize u groups => .synchronizeUser (.user u.kind) u.username groups

/-- The parameters in the path of a deed. -/
def parameters (id : String) : Deed → Parameters
  | .grantTeam _ p | .revokeTeam _ p => [("team_id", id), ("name", p.name)]
  | .grantUser u p => [("kind", u.kind.text), ("username", u.username), ("name", p.name)]
  | .join u _ | .leave u _ =>
    [("kind", u.kind.text), ("username", u.username), ("team_id", id)]
  | .synchronize u _ => [("kind", u.kind.text), ("username", u.username)]

/-! ## Routing -/

section Route

/-- Every segment of the path of a deed, the names apart, is free of slashes. -/
theorem segments_plain (hi : ∀ t ∈ d.team?, Uuid.parse? id = some t.id) :
    ∀ segment ∈ d.segments id, segment ∈ d.names ∨ '/' ∉ segment.toList := by
  have fixed : ∀ segment ∈ ["v1", "admin", "teams", "users", "permissions", "sync"],
      '/' ∉ segment.toList := by decide
  have spelled (h : d.team? ≠ none) : '/' ∉ id.toList := by
    obtain ⟨t, ht⟩ := Option.ne_none_iff_exists'.mp h
    exact Uuid.slash_not_mem_of_parse? (hi t ht)
  have kind (u : User) : '/' ∉ u.kind.text.toList := u.kind.text_plain.2
  cases d <;> simp_all [segments, names, team?]

/-- Without slashes in the names, the first route that fits is the one of the deed. -/
theorem matching?_of_plain (hi : ∀ t ∈ d.team?, Uuid.parse? id = some t.id)
    (hn : ∀ n ∈ d.names, n ≠ "" ∧ '/' ∉ n.toList) :
    Route.matching? d.method (joined '/' ((d.segments id).map String.toList)) =
      some (d.endpoint, d.parameters id) := by
  have plain : ∀ part ∈ (d.segments id).map String.toList, '/' ∉ part := by
    intro part hm
    obtain ⟨segment, hs, rfl⟩ := List.mem_map.mp hm
    rcases segments_plain hi segment hs with h | h
    · exact (hn segment h).2
    · exact h
  have spelled (h : d.team? ≠ none) : id ≠ "" := by
    obtain ⟨t, ht⟩ := Option.ne_none_iff_exists'.mp h
    exact Uuid.ne_empty_of_parse? (hi t ht)
  have kind (u : User) : u.kind.text ≠ "" := u.kind.text_plain.1
  have named : ∀ n ∈ d.names, n ≠ "" := fun n h => (hn n h).1
  rw [Route.matching?_joined, flatMap_splitAll plain]
  clear hi hn plain
  -- the segments are held against the parts of each route in turn
  cases d <;>
    simp_all [names, team?, segments, method, endpoint, parameters, Route.all, Route.admin,
      Route.team, Route.users, Route.matchParts]

/-- No route has more than seven segments, only routes to users have as many, and no route that
something is sent to has. -/
theorem routes_short : ∀ r ∈ Route.all, r.parts.length ≤ 7 ∧
    (r.parts.length ≤ 6 ∨ Route.users [] <+: r.parts) ∧
    (r.method = "POST" → r.parts.length ≤ 6) := by decide

/-- A path below the teams fits no route to users. -/
theorem matchParts_users {parts : List Part} (h : Route.users [] <+: parts) (texts : List String) :
    Route.matchParts parts ((("v1" :: "admin" :: "teams" :: texts).map String.toList).flatMap
      (splitAll '/')) = none := by
  have cut : (("v1" :: "admin" :: "teams" :: texts).map String.toList).flatMap (splitAll '/') =
      "v1".toList :: "admin".toList :: "teams".toList ::
        (texts.map String.toList).flatMap (splitAll '/') := by
    simp only [List.map_cons, List.flatMap_cons]
    rw [splitAll_of_not_mem (by decide), splitAll_of_not_mem (by decide),
      splitAll_of_not_mem (by decide)]
    rfl
  obtain ⟨rest, rfl⟩ := h
  rw [cut]
  simp [Route.users, Route.admin, Route.matchParts]

/-- With a slash in a name, no route fits. -/
theorem matching?_of_slash (hn : ∃ n ∈ d.names, '/' ∈ n.toList) :
    Route.matching? d.method (joined '/' ((d.segments id).map String.toList)) = none := by
  have longer : (d.segments id).length <
      (((d.segments id).map String.toList).flatMap (splitAll '/')).length := by
    obtain ⟨n, hm, hs⟩ := hn
    have there : n ∈ d.segments id := by
      cases d <;> simp only [names, List.mem_cons, List.not_mem_nil, or_false] at hm <;>
        rcases hm with rfl | rfl <;> simp [segments]
    have falls := length_flatMap_splitAll ⟨n.toList, List.mem_map_of_mem there, hs⟩
    rwa [List.length_map] at falls
  refine Route.matching?_joined_eq_none fun r hr hm => ?_
  obtain ⟨seven, six, post⟩ := routes_short r hr
  cases d with
  | grantTeam t p | revokeTeam t p =>
    rcases six with six | users
    · exact Route.matchParts_eq_none_of_length (Nat.lt_of_le_of_lt six longer)
    · exact matchParts_users users _
  | grantUser u p | join u t | leave u t =>
    exact Route.matchParts_eq_none_of_length (Nat.lt_of_le_of_lt seven longer)
  | synchronize u groups =>
    exact Route.matchParts_eq_none_of_length (Nat.lt_of_le_of_lt (post hm) longer)

end Route

/-! ## Answering -/

section Answer

/-- The request for a deed is checked without complaints. -/
theorem checked {request : Request} (hi : ∀ t ∈ d.team?, Uuid.parse? id = some t.id)
    (hr : d.Carried request) :
    ∃ payload, request.Carries d.endpoint payload ∧
      Call.ofRequest d.endpoint (d.parameters id) request payload = .ok d.call := by
  have kind (u : User) : PrincipalKind.ofText? u.kind.text = some (.user u.kind) :=
    PrincipalKind.ofText?_text (.user u.kind)
  cases d with
  | synchronize u groups =>
    obtain ⟨payload, hp, hg⟩ := hr
    refine ⟨payload, hp, ?_⟩
    simp [endpoint, parameters, call, Call.ofRequest, Call.pathKind, Call.pathText, kind,
      Checked.fine, Checked.ap, hg]
  | grantUser u p =>
    refine ⟨.absent, rfl, ?_⟩
    simp [endpoint, parameters, call, Call.ofRequest, Call.pathKind, Call.pathText, kind,
      Checked.fine, Checked.ap]
  | grantTeam t p | revokeTeam t p | join u t | leave u t =>
    refine ⟨.absent, rfl, ?_⟩
    simp [endpoint, parameters, call, Call.ofRequest, Call.pathKind, Call.pathTeam, Call.pathText,
      kind, hi t rfl, Checked.fine, Checked.ap]

end Answer

end Deed

namespace Call

variable (hd : st.Distinct)

include hd

theorem theTeam_reads (ht : t ∈ st.teams) :
    Reads st (theTeam t.id) (.ok (st.teamRecord t)) := by
  refine (Teams.get?_reads t.id).bind ?_
  rw [hd.teamById?_eq_some_iff.mpr ⟨ht, rfl⟩]
  exact .pure _

theorem thePermission_reads (hp : p ∈ st.permissions) :
    Reads st (thePermission p.name) (.ok p) := by
  have found : st.permission? p.name = some p :=
    (Store.find?_key_eq_some_iff hd.permissionNames).mpr ⟨hp, rfl⟩
  refine (Permissions.find?_reads p.name).bind ?_
  rw [found]
  exact .pure _

theorem theUser_reads (hu : u ∈ st.users) :
    Reads st (theUser (.user u.kind) u.username) (.ok (st.userRecord u)) := by
  have found : st.user? u.kind u.username = some u := hd.user?_eq_some_iff.mpr ⟨hu, rfl, rfl⟩
  refine Reads.bind ⟨_, Principals.findUser?_traces u.kind u.username⟩ ?_
  rw [found]
  exact .pure _

end Call

namespace Deed

/-- A deed is answered with 200 and done. -/
theorem ends {d : Deed} (hm : st.missing = []) (hd : st.Distinct) (hs : d.Stored st) :
    Ends (d.call.answer settings now caller) (Session.on st keys events) 200 (d.done st) := by
  have user {u : User} (hu : u ∈ st.users) : st.Keeps u := ⟨hm, hd, hu⟩
  cases d with
  | grantTeam t p =>
    exact .read hm (Call.theTeam_reads hd hs.1) (.read hm (Call.thePermission_reads hd hs.2)
      (.write (Permissions.grantToTeam_writes hm p t) rfl rfl
        (.commit rfl (.record (.answered _ _)))))
  | revokeTeam t p =>
    exact .read hm (Call.theTeam_reads hd hs.1) (.read hm (Call.thePermission_reads hd hs.2)
      (.write (Permissions.revokeFromTeam_writes hm p t) rfl rfl
        (.commit rfl (.record (.answered _ _)))))
  | grantUser u p =>
    exact .read hm (Call.theUser_reads hd hs.1) (.read hm (Call.thePermission_reads hd hs.2)
      (.write (Permissions.grantToUser_writes hm p u) rfl rfl
        (.commit rfl (.record (.answered _ _)))))
  | join u t =>
    have found : t.handle.id.bind st.teamById? = some t :=
      hd.teamById?_eq_some_iff.mpr ⟨hs.2, rfl⟩
    exact .read hm (Call.theUser_reads hd hs.1) (.read hm (Call.theTeam_reads hd hs.2)
      (.bind (MembershipService.add_moves hm (user hs.1).record? found _ _) (.answered _ _)))
  | leave u t =>
    exact .read hm (Call.theUser_reads hd hs.1) (.read hm (Call.theTeam_reads hd hs.2)
      (.bind (MembershipService.remove_moves hm (user hs.1).record? rfl hs.2 _ _) (.answered _ _)))
  | synchronize u groups =>
    obtain ⟨source, hk⟩ := UserKind.exists_source hs.2
    have moves := Synchronization.synchronize_moves (user hs.1) (user hs.1).record? hk groups
    simp only [done, hk, Option.elim]
    exact .read hm (Call.theUser_reads hd hs.1) (.bind (moves.caught _ _ _) (.answered _ _))

end Deed

namespace Server

variable {server : Server} {request : Request} {ref : CallerRef} {d : Deed} {id : String}

/-- A request that no route fits is turned away and changes nothing. -/
theorem handle_unmatched (outage : Option Outage)
    (h : Route.matching? request.method request.path = none) :
    (server.handle outage request).1.response.status ∈ [307, 404, 405] ∧
      (server.handle outage request).2 = server := by
  cases ht : Route.target request.method request.path with
  | endpoint endpoint parameters =>
    simp only [Route.target, h] at ht
    split at ht
    · cases ht
    · split at ht <;> cases ht
  | otherMethod | redirect | nowhere => simp [handle, ht, respond, detail]

/-- On every reachable store with all its tables, a caller that may administer reaches what a path
names, by names that are not empty and each encoded as one segment, exactly if none of these names
holds a slash. Then the deed is answered with 200 and done; otherwise the request is turned away and
nothing happens. -/
theorem deed_done_iff (hs : Reachable server.store) (hc : server.store.isComplete = true)
    (hn : Gate.Names server.settings request ref)
    (hg : server.store.GrantedTo Bootstrap.accessManagement ref) (hd : d.Stored server.store)
    (hne : ∀ n ∈ d.names, n ≠ "") (hi : ∀ t ∈ d.team?, Uuid.parse? id = some t.id)
    (hm : request.method = d.method) (ha : request.Addresses (d.segments id))
    (hr : d.Carried request) :
    ((server.handle none request).1.response.status = 200 ∧
        (server.handle none request).1.crash = none ∧
        (server.handle none request).2.store = d.done server.store ↔
      ∀ n ∈ d.names, '/' ∉ n.toList) ∧
    ((∃ n ∈ d.names, '/' ∈ n.toList) →
      (server.handle none request).1.response.status ∈ [307, 404, 405] ∧
        (server.handle none request).2 = server) := by
  have complete : server.store.missing = [] := List.isEmpty_iff.mp hc
  have turned (h : ∃ n ∈ d.names, '/' ∈ n.toList) :
      (server.handle none request).1.response.status ∈ [307, 404, 405] ∧
        (server.handle none request).2 = server := by
    refine handle_unmatched none ?_
    rw [hm, ha.path]
    exact Deed.matching?_of_slash h
  refine ⟨⟨fun h => ?_, fun plain => ?_⟩, turned⟩
  · by_contra hslash
    have away := (turned (by simpa using hslash)).1
    rw [h.1] at away
    exact absurd away (by decide)
  · have matched := Deed.matching?_of_plain hi fun n hmem => ⟨hne n hmem, plain n hmem⟩
    rw [← ha.path, ← hm] at matched
    have target : Route.target request.method request.path =
        .endpoint d.endpoint (d.parameters id) := by simp only [Route.target, matched]
    obtain ⟨payload, hp, hcall⟩ := Deed.checked hi hr
    exact handle_ends complete hs.distinct ⟨target, d.endpoint_isAdmin⟩ hp hcall hn hg fun caller =>
      Deed.ends complete hs.distinct hd

end Server

end Http

namespace Sample

/-- A permission whose name holds a space, a percent sign and a question mark. -/
def marked : Permission := ⟨id 5, "100 % sure?", none⟩

/-- The store once that permission has been created. -/
def markedStore : Store := { store with permissions := [management, marked] }

theorem markedStore_reachable : Reachable markedStore := by
  have h : (Script.runEntry (.transaction [⟨.createPermission marked.name none, none⟩] true)
      store).2 = markedStore := by decide +kernel
  exact h ▸ .script _ reachable

/-- A permission whose name holds a slash. -/
def slashed : Permission := ⟨id 5, "a/b", none⟩

/-- The identifier of the guests. -/
def guestsId : String := "6d1f0c2a-93b7-4e58-a1c4-000000000002"

theorem parse?_guestsId : Uuid.parse? guestsId = some guests.id := by decide +kernel

end Sample

namespace Http.Server

/-- A permission with marks in its name is granted to the guests. -/
theorem deed_done_iff_marked :
    let server : Server := ⟨{}, Sample.markedStore, {}⟩
    let request : Request := ⟨"PUT",
      "/v1/admin/teams/" ++ Sample.guestsId ++ "/permissions/100%20%25%20sure%3F",
      [("X-Api-Key", "k-1")], [], 0, "r"⟩
    let deed : Deed := .grantTeam Sample.guests Sample.marked
    Reachable server.store ∧ deed.Stored server.store ∧
      request.Addresses (deed.segments Sample.guestsId) ∧
      (server.handle none request).1.response.status = 200 ∧
      (server.handle none request).2.store.teamPermissions Sample.guests.id = [Sample.marked] := by
  intro server request deed
  have stored : deed.Stored server.store := ⟨by decide, by decide⟩
  have addressed : request.Addresses (deed.segments Sample.guestsId) :=
    @Request.addresses_encode _ _ [] (by simp) (by decide +kernel)
  have granted : server.store.GrantedTo Bootstrap.accessManagement ⟨.apiKey, "k-1"⟩ :=
    ⟨Sample.key, by decide, rfl, Sample.admins, by decide, by decide, Sample.management, by decide,
      rfl, by decide⟩
  have spelled : ∀ t ∈ deed.team?, Uuid.parse? Sample.guestsId = some t.id := by
    rintro t ⟨⟩
    exact Sample.parse?_guestsId
  obtain ⟨status, -, done⟩ := (deed_done_iff Sample.markedStore_reachable rfl
    (.apiKey (by decide +kernel) (by decide)) granted stored (by decide) spelled rfl addressed
    trivial).1.mpr (by decide)
  refine ⟨Sample.markedStore_reachable, stored, addressed, status, ?_⟩
  rw [done]
  decide +kernel

/-- A name with a slash is accepted, and then cannot be granted: the path that carries it as one
segment leads nowhere. -/
theorem slash_unreachable :
    let server : Server := ⟨{}, Sample.store, {}⟩
    let request (method target body : String) : Request := ⟨method, target,
      [("X-Api-Key", "k-1"), ("Content-Type", "application/json")], body.toUTF8.toList, 0, "r"⟩
    let created := server.handle none
      (request "POST" "/v1/admin/permissions" "\x7b\"name\":\"a/b\"\x7d")
    let grant := request "PUT"
      ("/v1/admin/teams/" ++ Sample.guestsId ++ "/permissions/a%2Fb") ""
    let deed : Deed := .grantTeam Sample.guests Sample.slashed
    Reachable Sample.store ∧ created.1.response.status = 201 ∧ deed.Stored created.2.store ∧
      grant.Addresses (deed.segments Sample.guestsId) ∧
      (created.2.handle none grant).1.response.status = 404 := by
  intro server request created grant deed
  exact ⟨Sample.reachable, by decide +kernel, ⟨by decide +kernel, by decide +kernel⟩,
    @Request.addresses_encode _ _ [] (by simp) (by decide +kernel), by decide +kernel⟩

end Http.Server

end TeamAccess
