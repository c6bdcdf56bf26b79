import Mathlib.Data.List.Nodup
import TeamAccess.Proofs.Store.Written

/-! # Distinct rows

No two rows of a table agree in a name or in an identifier, and no edge occurs twice. Every change
of the store keeps this, whatever it is asked for: a change that would break it is refused.
-/

namespace TeamAccess.Store

variable {s s' : Store}

/-- No two rows agree in what has to be unique. -/
structure Distinct (s : Store) : Prop where
  permissionNames : (s.permissions.map (·.name)).Nodup
  permissionIds : (s.permissions.map (·.id)).Nodup
  teamNames : (s.teams.map (·.name)).Nodup
  teamIds : (s.teams.map (·.id)).Nodup
  usernames : (s.users.map fun u => (u.kind, u.username)).Nodup
  userIds : (s.users.map (·.id)).Nodup
  keyTexts : (s.apiKeys.map (·.key)).Nodup
  keyIds : (s.apiKeys.map (·.id)).Nodup
  groupNames : (s.oidcGroups.map (·.name)).Nodup
  groupIds : (s.oidcGroups.map (·.id)).Nodup
  ldapMappings : s.ldapMappings.Nodup
  oidcMappings : s.oidcMappings.Nodup
  memberships : s.memberships.Nodup
  userGrants : s.userGrants.Nodup
  teamGrants : s.teamGrants.Nodup

theorem distinct_empty : Distinct empty := by
  constructor <;> exact List.nodup_nil

section Lists

variable {α β : Type} {xs : List α} {a : α} {f : α → β}

theorem nodup_concat (h : xs.Nodup) (ha : a ∉ xs) : (xs ++ [a]).Nodup := by
  rw [List.nodup_append]
  refine ⟨h, List.nodup_singleton a, fun b hb c hc he => ?_⟩
  rw [List.mem_singleton] at hc
  exact ha (hc ▸ he ▸ hb)

theorem nodup_map_concat (h : (xs.map f).Nodup) (ha : f a ∉ xs.map f) :
    ((xs ++ [a]).map f).Nodup := by
  rw [List.map_append]
  exact nodup_concat h ha

theorem nodup_map_filter (p : α → Bool) (h : (xs.map f).Nodup) :
    ((xs.filter p).map f).Nodup :=
  h.sublist (List.filter_sublist.map f)

/-- Giving one row another key keeps the keys distinct if no other row has the new key. -/
theorem nodup_map_replace (p : α → Prop) [DecidablePred p] (h : (xs.map f).Nodup)
    (ha : ∀ x ∈ xs, ¬ p x → f x ≠ f a) (hp : xs.Pairwise fun x y => ¬ (p x ∧ p y)) :
    ((xs.map fun x => if p x then a else x).map f).Nodup := by
  have hf := (List.pairwise_map.mp h).and hp
  refine List.pairwise_map.mpr (List.pairwise_map.mpr (hf.imp_of_mem ?_))
  rintro x y hx hy ⟨hne, hnp⟩
  by_cases px : p x <;> by_cases py : p y <;> simp only [px, py, if_true, if_false]
  · exact absurd ⟨px, py⟩ hnp
  · exact (ha y hy py).symm
  · exact ha x hx px
  · exact hne

theorem map_replace (p : α → Prop) [DecidablePred p] (h : ∀ x, p x → f x = f a) :
    (xs.map fun x => if p x then a else x).map f = xs.map f := by
  rw [List.map_map]
  refine List.map_congr_left fun x _ => ?_
  by_cases px : p x
  · simp [px, h x px]
  · simp [px]

theorem pairwise_not_and_of_nodup_map (b : β) (h : (xs.map f).Nodup) :
    xs.Pairwise fun x y => ¬ (f x = b ∧ f y = b) :=
  (List.pairwise_map.mp h).imp fun hne hb => hne (hb.1.trans hb.2.symm)

/-- Where at most one row passes a test, looking for it finds exactly that row. -/
theorem find?_eq_some_iff_of_unique {p : α → Bool}
    (hp : ∀ x ∈ xs, ∀ y ∈ xs, p x = true → p y = true → x = y) :
    xs.find? p = some a ↔ a ∈ xs ∧ p a = true := by
  constructor
  · exact fun h => ⟨List.mem_of_find?_eq_some h, List.find?_some h⟩
  · rintro ⟨ha, hpa⟩
    cases hf : xs.find? p with
    | none => exact absurd hpa (List.find?_eq_none.mp hf a ha)
    | some b =>
      rw [hp b (List.mem_of_find?_eq_some hf) a ha (List.find?_some hf) hpa]

theorem find?_key_eq_some_iff [DecidableEq β] (h : (xs.map f).Nodup) {b : β} :
    xs.find? (f · = b) = some a ↔ a ∈ xs ∧ f a = b := by
  rw [find?_eq_some_iff_of_unique, decide_eq_true_eq]
  intro x hx y hy px py
  rw [decide_eq_true_eq] at px py
  exact List.inj_on_of_nodup_map h hx hy (px.trans py.symm)

end Lists

section FreshId

theorem lt_foldl_of_mem (ids : List Uuid) (n : Nat) {id : Uuid} (h : id ∈ ids) :
    id.value < ids.foldl (fun n u => max n (u.value + 1)) n := by
  have mono : ∀ (ids : List Uuid) (n : Nat),
      n ≤ ids.foldl (fun n u => max n (u.value + 1)) n := by
    intro ids
    induction ids with
    | nil => exact fun n => Nat.le_refl n
    | cons u ids ih => exact fun n => Nat.le_trans (Nat.le_max_left _ _) (ih _)
  induction ids generalizing n with
  | nil => simp at h
  | cons u ids ih =>
    rcases List.mem_cons.mp h with rfl | h
    · exact Nat.lt_of_lt_of_le (Nat.le_max_right n (id.value + 1)) (mono ids _)
    · exact ih _ h

theorem freshId_not_mem (s : Store) : s.freshId ∉ s.usedIds := by
  intro h
  have := lt_foldl_of_mem s.usedIds firstId h
  simp [freshId] at this

end FreshId

namespace Distinct

theorem addPermission {name : String} {description : Option String} {p : Permission}
    (h : s.Distinct) (hs : s.addPermission name description = .ok (p, s')) : s'.Distinct := by
  obtain ⟨hn, rfl, rfl⟩ := addPermission_ok hs
  refine { h with permissionNames := ?_, permissionIds := ?_ }
  · refine nodup_map_concat h.permissionNames ?_
    simpa [permission?] using hn
  · refine nodup_map_concat h.permissionIds fun hm => s.freshId_not_mem ?_
    simp [usedIds, hm]

theorem insertTeam {t t' : Team} (h : s.Distinct) (hs : s.insertTeam t = .ok (t', s')) :
    s'.Distinct := by
  obtain ⟨hn, hi, rfl, rfl⟩ := insertTeam_ok hs
  refine { h with teamNames := ?_, teamIds := ?_ }
  · refine nodup_map_concat h.teamNames ?_
    simpa [team?] using hn
  · refine nodup_map_concat h.teamIds ?_
    simpa [teamById?] using hi

theorem addTeam {name : String} {t : Team} (h : s.Distinct) (hs : s.addTeam name = .ok (t, s')) :
    s'.Distinct := h.insertTeam hs

theorem renameTeam {id : Uuid} {name : String} (h : s.Distinct)
    (hs : s.renameTeam id name = .ok ((), s')) : s'.Distinct := by
  obtain ⟨hn, rfl⟩ := renameTeam_ok hs
  refine { h with teamNames := ?_, teamIds := ?_ }
  · refine nodup_map_replace (a := ⟨id, name⟩) (·.id = id) h.teamNames
      (fun t ht hi he => hi (hn t ht he)) ?_
    exact pairwise_not_and_of_nodup_map id h.teamIds
  · dsimp only
    rw [map_replace (fun t : Team => t.id = id) fun _ h => h]
    exact h.teamIds

theorem addUser {username : String} {profile : Profile} {u : User} (h : s.Distinct)
    (hs : s.addUser username profile = .ok (u, s')) : s'.Distinct := by
  obtain ⟨hn, rfl, rfl⟩ := addUser_ok hs
  refine { h with usernames := ?_, userIds := ?_ }
  · have hn : ∀ u ∈ s.users, u.kind = profile.kind → u.username ≠ username := by
      simpa [user?] using hn
    refine nodup_map_concat h.usernames fun hm => ?_
    obtain ⟨u, hu, he⟩ := List.mem_map.mp hm
    exact hn u hu (Prod.ext_iff.mp he).1 (Prod.ext_iff.mp he).2
  · refine nodup_map_concat h.userIds fun hm => s.freshId_not_mem ?_
    simp [usedIds, hm]

theorem addMemberships {kind : PrincipalKind} {principal : Uuid} {teams : List Uuid}
    (h : s.Distinct) (hs : s.addMemberships kind principal teams = .ok s') : s'.Distinct := by
  induction teams generalizing s with
  | nil =>
    obtain rfl := by simpa [Store.addMemberships] using hs
    exact h
  | cons team teams ih =>
    unfold Store.addMemberships at hs
    split at hs
    · simp at hs
    · rename_i hn
      have joined : Distinct
          { s with memberships := s.memberships ++ [⟨kind, principal, team⟩] } :=
        { h with memberships := nodup_concat h.memberships hn }
      exact ih joined hs

theorem addApiKey {key : String} {teams : List Uuid} {k : ApiKey} (h : s.Distinct)
    (hs : s.addApiKey key teams = .ok (k, s')) : s'.Distinct := by
  obtain ⟨hn, rfl, hm⟩ := addApiKey_ok hs
  have added : Distinct { s with apiKeys := s.apiKeys ++ [⟨s.freshId, key⟩] } := by
    refine { h with keyTexts := ?_, keyIds := ?_ }
    · refine nodup_map_concat h.keyTexts ?_
      simpa [apiKey?] using hn
    · refine nodup_map_concat h.keyIds fun hm => s.freshId_not_mem ?_
      simp [usedIds, hm]
  exact added.addMemberships hm

theorem replaceApiKey {id : Uuid} {key : String} (h : s.Distinct)
    (hs : s.replaceApiKey id key = .ok ((), s')) : s'.Distinct := by
  obtain ⟨hn, rfl⟩ := replaceApiKey_ok hs
  refine { h with keyTexts := ?_, keyIds := ?_ }
  · refine nodup_map_replace (a := ⟨id, key⟩) (·.id = id) h.keyTexts
      (fun k hk hi he => hi (hn k hk he)) ?_
    exact pairwise_not_and_of_nodup_map id h.keyIds
  · dsimp only
    rw [map_replace (fun k : ApiKey => k.id = id) fun _ h => h]
    exact h.keyIds

theorem addOidcGroup {name : String} {g : OidcGroup} (h : s.Distinct)
    (hs : s.addOidcGroup name = .ok (g, s')) : s'.Distinct := by
  obtain ⟨hn, rfl, rfl⟩ := addOidcGroup_ok hs
  refine { h with groupNames := ?_, groupIds := ?_ }
  · refine nodup_map_concat h.groupNames ?_
    simpa [oidcGroup?] using hn
  · refine nodup_map_concat h.groupIds fun hm => s.freshId_not_mem ?_
    simp [usedIds, hm]

theorem mapLdap (team : Uuid) (dn : String) (h : s.Distinct) : (s.mapLdap team dn).Distinct := by
  unfold Store.mapLdap
  split
  · exact h
  · rename_i hn
    exact { h with ldapMappings := nodup_concat h.ldapMappings hn }

theorem unmapLdap (team : Uuid) (dn : String) (h : s.Distinct) :
    (s.unmapLdap team dn).Distinct := { h with ldapMappings := h.ldapMappings.filter _ }

theorem mapOidc (team group : Uuid) (h : s.Distinct) : (s.mapOidc team group).Distinct := by
  unfold Store.mapOidc
  split
  · exact h
  · rename_i hn
    exact { h with oidcMappings := nodup_concat h.oidcMappings hn }

theorem unmapOidc (team group : Uuid) (h : s.Distinct) : (s.unmapOidc team group).Distinct :=
  { h with oidcMappings := h.oidcMappings.filter _ }

theorem join (edge : Membership) (h : s.Distinct) : (s.join edge).Distinct := by
  unfold Store.join
  split
  · exact h
  · rename_i hn
    exact { h with memberships := nodup_concat h.memberships hn }

theorem leave (edge : Membership) (h : s.Distinct) : (s.leave edge).Distinct :=
  { h with memberships := h.memberships.filter _ }

theorem grantTeam (grant : TeamGrant) (h : s.Distinct) : (s.grantTeam grant).Distinct := by
  unfold Store.grantTeam
  split
  · exact h
  · rename_i hn
    exact { h with teamGrants := nodup_concat h.teamGrants hn }

theorem revokeTeam (grant : TeamGrant) (h : s.Distinct) : (s.revokeTeam grant).Distinct :=
  { h with teamGrants := h.teamGrants.filter _ }

theorem grantUser (grant : UserGrant) (h : s.Distinct) : (s.grantUser grant).Distinct := by
  unfold Store.grantUser
  split
  · exact h
  · rename_i hn
    exact { h with userGrants := nodup_concat h.userGrants hn }

theorem dropTable (table : Table) (h : s.Distinct) : (s.dropTable table).Distinct := by
  cases table with
  | permissions => exact { h with permissionNames := .nil, permissionIds := .nil }
  | teams => exact { h with teamNames := .nil, teamIds := .nil }
  | users k =>
    exact { h with
      usernames := nodup_map_filter _ h.usernames, userIds := nodup_map_filter _ h.userIds }
  | apiKeys => exact { h with keyTexts := .nil, keyIds := .nil }
  | oidcGroups => exact { h with groupNames := .nil, groupIds := .nil }
  | ldapMappings => exact { h with ldapMappings := .nil }
  | oidcMappings => exact { h with oidcMappings := .nil }
  | memberships k => exact { h with memberships := h.memberships.filter _ }
  | userGrants k => exact { h with userGrants := h.userGrants.filter _ }
  | teamGrants => exact { h with teamGrants := .nil }

theorem createTables (h : s.Distinct) : s.createTables.Distinct := { h with }

section Lookup

variable {u : User} {k : ApiKey} {g : OidcGroup} {kind : UserKind} {name : String} {id : Uuid}

theorem user?_eq_some_iff (h : s.Distinct) :
    s.user? kind name = some u ↔ u ∈ s.users ∧ u.kind = kind ∧ u.username = name := by
  rw [user?, find?_eq_some_iff_of_unique, decide_eq_true_eq]
  intro x hx y hy px py
  rw [decide_eq_true_eq] at px py
  refine List.inj_on_of_nodup_map h.usernames hx hy ?_
  rw [px.1, px.2, py.1, py.2]

theorem userById?_eq_some_iff (h : s.Distinct) :
    s.userById? kind id = some u ↔ u ∈ s.users ∧ u.kind = kind ∧ u.id = id := by
  rw [userById?, find?_eq_some_iff_of_unique, decide_eq_true_eq]
  intro x hx y hy px py
  rw [decide_eq_true_eq] at px py
  exact List.inj_on_of_nodup_map h.userIds hx hy (px.2.trans py.2.symm)

theorem teamById?_eq_some_iff (h : s.Distinct) {t : Team} :
    s.teamById? id = some t ↔ t ∈ s.teams ∧ t.id = id := find?_key_eq_some_iff h.teamIds

theorem apiKey?_eq_some_iff (h : s.Distinct) :
    s.apiKey? name = some k ↔ k ∈ s.apiKeys ∧ k.key = name := find?_key_eq_some_iff h.keyTexts

theorem apiKeyById?_eq_some_iff (h : s.Distinct) :
    s.apiKeyById? id = some k ↔ k ∈ s.apiKeys ∧ k.id = id := find?_key_eq_some_iff h.keyIds

theorem oidcGroup?_eq_some_iff (h : s.Distinct) :
    s.oidcGroup? name = some g ↔ g ∈ s.oidcGroups ∧ g.name = name :=
  find?_key_eq_some_iff h.groupNames

end Lookup

end Distinct

end TeamAccess.Store
