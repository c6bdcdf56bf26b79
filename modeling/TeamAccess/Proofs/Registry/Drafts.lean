import TeamAccess.Proofs.Drafts

/-! # What the registry drafts

For each operation that changes rows: which change it drafts where it answers, and what it answers.
None of them commits anything.
-/

namespace TeamAccess

open TeamAccess.Action

variable {st rows : Store}

namespace Teams

theorem create_drafts (name : String) :
    Drafts st rows (create name) fun t rows' => rows.addTeam name = .ok (t.team, rows') :=
  .read (.attempt _) (((Drafts.change _ _).bind_pure _).imp fun _ _ ⟨_, ha, he⟩ => ha ▸ he)

theorem rename_drafts (id : Uuid) (name : String) :
    Drafts st rows (rename id name) fun _ rows' =>
      rows' = rows ∨ rows.renameTeam id name = .ok ((), rows') := by
  refine .read (.attempt _) (.read (.query _ _) (.read (loaded_reads _) ?_))
  cases (rows.teamById? id).map rows.teamRecord with
  | none => exact Drafts.pure (.inl rfl)
  | some record => exact (Drafts.change _ _).bind fun _ _ he => Drafts.pure (.inr he)

end Teams

namespace Permissions

theorem create_drafts (name : String) (description : Option String) :
    Drafts st rows (create name description) fun p rows' =>
      rows.addPermission name description = .ok (p, rows') :=
  .read (.attempt _) (Drafts.change _ _)

theorem grantToTeam_drafts (t : Team) (q : Permission) :
    Drafts st rows (grantToTeam t.handle q) fun b rows' =>
      rows' = rows.grantTeam ⟨t.id, q.id⟩ ∧ b = !decide (⟨t.id, q.id⟩ ∈ rows.teamGrants) := by
  refine .read (.attempt _) ?_
  simp only [Team.handle]
  refine .read (.ask _) ?_
  by_cases held : ⟨t.id, q.id⟩ ∈ rows.teamGrants
  · rw [if_pos (by simpa using held)]
    exact Drafts.pure ⟨(if_pos held).symm, by simp [held]⟩
  · rw [if_neg (by simpa using held)]
    exact (Drafts.update _ _).bind fun _ _ he => Drafts.pure ⟨he, by simp [held]⟩

theorem revokeFromTeam_drafts (t : Team) (q : Permission) :
    Drafts st rows (revokeFromTeam t.handle q) fun b rows' =>
      rows' = rows.revokeTeam ⟨t.id, q.id⟩ ∧ b = decide (⟨t.id, q.id⟩ ∈ rows.teamGrants) := by
  refine .read (.attempt _) ?_
  simp only [Team.handle]
  refine .read (.ask _) ?_
  by_cases held : ⟨t.id, q.id⟩ ∈ rows.teamGrants
  · rw [if_neg (by simpa using held)]
    exact (Drafts.update _ _).bind fun _ _ he => Drafts.pure ⟨he, by simp [held]⟩
  · rw [if_pos (by simpa using held)]
    exact Drafts.pure ⟨(Store.revokeTeam_of_not_mem held).symm, by simp [held]⟩

/-- Only users hold permissions directly. -/
theorem grantToUser_drafts {p : PrincipalHandle} {id : Uuid} (hi : p.id = some id)
    (ht : p.tracked = true) (q : Permission) :
    Drafts st rows (grantToUser p q) fun b rows' => ∃ k, p.kind = .user k ∧
      rows' = rows.grantUser ⟨k, id, q.id⟩ ∧ b = !decide (⟨k, id, q.id⟩ ∈ rows.userGrants) := by
  refine .read (.attempt _) ?_
  cases hk : p.kind with
  | apiKey => exact .throw _
  | user k =>
    simp only [hi, ht]
    refine .read (.ask _) ?_
    by_cases held : ⟨k, id, q.id⟩ ∈ rows.userGrants
    · rw [if_pos (by simpa using held)]
      exact Drafts.pure ⟨k, rfl, (if_pos held).symm, by simp [held]⟩
    · rw [if_neg (by simpa using held)]
      exact (Drafts.update _ _).bind fun _ _ he => Drafts.pure ⟨k, rfl, he, by simp [held]⟩

end Permissions

namespace Groups

theorem create_drafts (name : String) :
    Drafts st rows (create name) fun g rows' => rows.addOidcGroup name = .ok (g, rows') :=
  .read (.attempt _) (Drafts.change _ _)

theorem mapLdap_drafts (t : Team) (dn : String) :
    Drafts st rows (mapLdap t.handle dn) fun b rows' =>
      rows' = rows.mapLdap t.id dn ∧ b = !decide (⟨t.id, dn⟩ ∈ rows.ldapMappings) :=
  .read (.attempt _) (.read (.require _) (.read (.pure t.id) (.read (.ask _)
    ((Drafts.update _ _).bind fun _ _ he => Drafts.pure ⟨he, by simp⟩))))

theorem unmapLdap_drafts (t : Team) (dn : String) :
    Drafts st rows (unmapLdap t.handle dn) fun b rows' =>
      rows' = rows.unmapLdap t.id dn ∧ b = decide (⟨t.id, dn⟩ ∈ rows.ldapMappings) :=
  .read (.attempt _) (.read (.require _) (.read (.ask _)
    ((Drafts.update _ _).bind fun _ _ he => Drafts.pure ⟨he, by simp⟩)))

theorem mapOidc_drafts (t : Team) (g : OidcGroup) :
    Drafts st rows (mapOidc t.handle g) fun b rows' =>
      rows' = rows.mapOidc t.id g.id ∧ b = !decide (⟨t.id, g.id⟩ ∈ rows.oidcMappings) :=
  .read (.attempt _) (.read (.require _) (.read (.pure t.id) (.read (.ask _)
    ((Drafts.update _ _).bind fun _ _ he => Drafts.pure ⟨he, by simp⟩))))

theorem unmapOidc_drafts (t : Team) (g : OidcGroup) :
    Drafts st rows (unmapOidc t.handle g) fun b rows' =>
      rows' = rows.unmapOidc t.id g.id ∧ b = decide (⟨t.id, g.id⟩ ∈ rows.oidcMappings) :=
  .read (.attempt _) (.read (.require _) (.read (.ask _)
    ((Drafts.update _ _).bind fun _ _ he => Drafts.pure ⟨he, by simp⟩)))

end Groups

namespace Principals

theorem createUser_drafts (username : String) (profile : Profile) :
    Drafts st rows (createUser username profile) fun r rows' =>
      rows.addUser username profile = .ok (r.user, rows') :=
  .read (.attempt _) (((Drafts.change _ _).bind_pure _).imp fun _ _ ⟨_, ha, he⟩ => ha ▸ he)

theorem createApiKey_drafts (key : String) (teams : List Team) :
    Drafts st rows (createApiKey key teams) fun r rows' =>
      r.teams = teams ∧ rows.addApiKey key (teams.map (·.id)) = .ok (r.apiKey, rows') := by
  refine .read (.attempt _) (.read (.require _) ?_)
  exact (Drafts.change _ _).bind fun _ _ he => Drafts.pure ⟨rfl, he⟩

theorem regenerateApiKey_drafts (p : PrincipalHandle) (key : String) :
    Drafts st rows (regenerateApiKey p key) fun _ rows' =>
      ∃ id, rows.replaceApiKey id key = .ok ((), rows') := by
  refine .read (.attempt _) (.find (lock_finds p) fun r _ => ?_)
  cases r with
  | user r => exact .throw _
  | apiKey r => exact (Drafts.change _ _).bind fun _ _ he => Drafts.pure ⟨_, he⟩

end Principals

end TeamAccess
