import TeamAccess.Proofs.Outcome
import TeamAccess.Settings.Load

/-! # What settings are loaded with

Each value that is given sets the setting of its name and no other one. So the database URL of an
installation is the last variable of this name, in whatever case its letters are, or the default.
-/

namespace TeamAccess.Settings

variable {s s' : Settings} {name : String} {value : Json}

theorem set_keeps_databaseUrl (h : s.set name value = .ok s') (hn : name ≠ "database_url") :
    s'.databaseUrl = s.databaseUrl := by
  unfold set at h
  split at h
  case h_1 =>
    split at h <;> cases h
    rfl
  case h_10 => exact absurd rfl hn
  case h_12 => cases h
  all_goals
    obtain ⟨x, -, h⟩ := bind_eq_ok_iff.mp h
    cases h
    rfl

theorem accept_keeps_databaseUrl (state : Settings × List Complaint) (hn : name ≠ "database_url") :
    (accept state name value).1.databaseUrl = state.1.databaseUrl := by
  unfold accept
  split
  · rename_i h
    exact set_keeps_databaseUrl h hn
  · rfl

theorem foldl_keeps_databaseUrl {values : List (String × Json)}
    (h : ∀ v ∈ values, v.1 ≠ "database_url") (state : Settings × List Complaint) :
    (values.foldl (fun state v => accept state v.1 v.2) state).1.databaseUrl =
      state.1.databaseUrl := by
  induction values generalizing state with
  | nil => rfl
  | cons v values ih =>
    rw [List.foldl_cons, ih fun v hv => h v (by simp [hv])]
    exact accept_keeps_databaseUrl state (h v (by simp))

/-- The values that an environment gives to some settings. -/
def givenTo (env : List (String × String)) (names : List String) : List (String × Json) :=
  names.filterMap fun name => (given? env [] name).map (name, ·)

theorem name_mem_of_givenTo {env : List (String × String)} {names : List String}
    {v : String × Json} (h : v ∈ givenTo env names) : v.1 ∈ names := by
  obtain ⟨name, hm, hv⟩ := List.mem_filterMap.mp h
  obtain ⟨value, -, rfl⟩ := Option.map_eq_some_iff.mp hv
  exact hm

/-- Settings that are loaded have the last database URL of the environment. -/
theorem load_databaseUrl {env : List (String × String)} {settings : Settings}
    (h : load env [] = .ok settings) :
    settings.databaseUrl =
      (fromEnvironment? env "database_url").getD ({} : Settings).databaseUrl := by
  have loaded : ((givenTo env names).foldl (fun state v => accept state v.1 v.2) ({}, [])).1 =
      settings := by
    have unknown : givenTo env names ++ [] = givenTo env names := List.append_nil _
    unfold load at h
    simp only [List.filter_nil] at h
    rw [← givenTo, unknown] at h
    split at h
    · rename_i hf
      rw [hf]
      cases h
      rfl
    · cases h
  -- the values before and after that of the URL do not touch it
  have parts : names = names.take 9 ++ "database_url" :: names.drop 10 := rfl
  have before : ∀ v ∈ givenTo env (names.take 9), v.1 ≠ "database_url" := fun v hv he =>
    absurd (he ▸ name_mem_of_givenTo hv) (by decide)
  have after : ∀ v ∈ givenTo env (names.drop 10), v.1 ≠ "database_url" := fun v hv he =>
    absurd (he ▸ name_mem_of_givenTo hv) (by decide)
  have own : given? env [] "database_url" = (fromEnvironment? env "database_url").map .str := rfl
  rw [← loaded, parts]
  unfold givenTo at before after ⊢
  rw [List.filterMap_append, List.filterMap_cons, own, List.foldl_append]
  cases fromEnvironment? env "database_url" with
  | none =>
    simp only [Option.map_none]
    rw [foldl_keeps_databaseUrl after, foldl_keeps_databaseUrl before]
    rfl
  | some url =>
    simp only [Option.map_some, List.foldl_cons]
    rw [foldl_keeps_databaseUrl after]
    rfl

end TeamAccess.Settings
