import Mathlib.Data.List.TakeWhile
import TeamAccess.DatabaseUrl
import TeamAccess.Proofs.Store.Sorted
import TeamAccess.Proofs.Text.Form

/-! # Options of a database URL

The options of a URL are grouped by their names, each group with its values in their order, and no
value is empty. Options of this form are read back from their text, in the order of the names.
-/

namespace TeamAccess.DatabaseUrl

variable {options known : List (String × List String)} {name value : String} {text : List Char}

/-- Every name has one group of values, and no group and no value is empty. -/
structure Grouped (options : List (String × List String)) : Prop where
  names : (options.map (·.1)).Nodup
  groups : ∀ o ∈ options, o.2 ≠ []
  values : ∀ o ∈ options, ∀ value ∈ o.2, value ≠ ""

/-- The pairs of a group. -/
def pairsOf (option : String × List String) : List (String × String) :=
  option.2.map (option.1, ·)

section Reading

theorem names_addOption (name value : String) (options : List (String × List String)) :
    (addOption name value options).map (·.1) =
      if name ∈ options.map (·.1) then options.map (·.1) else options.map (·.1) ++ [name] := by
  induction options with
  | nil => rfl
  | cons o options ih =>
    rw [addOption]
    split
    · rename_i he
      simp [he]
    · rename_i hne
      rw [List.map_cons, ih]
      have other : name ≠ o.1 := Ne.symm hne
      simp only [List.map_cons, List.mem_cons, other, false_or]
      split <;> rfl

theorem mem_addOption {o : String × List String} (h : o ∈ addOption name value options) :
    o ∈ options ∨ ∃ values, o = (name, values ++ [value]) ∧
      (values = [] ∨ (name, values) ∈ options) := by
  induction options with
  | nil => exact .inr ⟨[], List.mem_singleton.mp h, .inl rfl⟩
  | cons k options ih =>
    rw [addOption] at h
    split at h
    · rename_i he
      rcases List.mem_cons.mp h with rfl | hm
      · exact .inr ⟨k.2, by rw [he], .inr (he ▸ List.mem_cons_self)⟩
      · exact .inl (List.mem_cons_of_mem _ hm)
    · rcases List.mem_cons.mp h with rfl | hm
      · exact .inl List.mem_cons_self
      · rcases ih hm with hm | ⟨values, rfl, hv⟩
        · exact .inl (List.mem_cons_of_mem _ hm)
        · exact .inr ⟨values, rfl, hv.imp_right (List.mem_cons_of_mem _)⟩

theorem Grouped.addOption (h : Grouped options) (hv : value ≠ "") :
    Grouped (addOption name value options) := by
  constructor
  · rw [names_addOption]
    split
    · exact h.names
    · rename_i hn
      exact List.nodup_append.mpr ⟨h.names, List.nodup_singleton _, fun a ha b hb =>
        List.mem_singleton.mp hb ▸ fun he => hn (he ▸ ha)⟩
  · intro o ho
    rcases mem_addOption ho with ho | ⟨values, rfl, -⟩
    · exact h.groups o ho
    · simp
  · intro o ho
    rcases mem_addOption ho with ho | ⟨values, rfl, hg⟩
    · exact h.values o ho
    · refine List.forall_mem_append.mpr ⟨?_, List.forall_mem_singleton.mpr hv⟩
      rcases hg with rfl | hg
      · nofun
      · exact h.values _ hg

theorem Grouped.foldl {pairs : List (String × String)} (h : Grouped options)
    (hv : ∀ p ∈ pairs, p.2 ≠ "") :
    Grouped (pairs.foldl (fun o p => DatabaseUrl.addOption p.1 p.2 o) options) := by
  induction pairs generalizing options with
  | nil => exact h
  | cons p pairs ih =>
    obtain ⟨hp, hr⟩ := List.forall_mem_cons.mp hv
    exact ih (h.addOption hp) hr

theorem grouped_readOptions (text : List Char) : Grouped (readOptions text) := by
  have none : Grouped [] := ⟨.nil, nofun, nofun⟩
  unfold readOptions
  split
  · exact none.foldl fun p hp => Text.Form.value_ne_of_mem_filledPairs hp
  · exact none

end Reading

section Writing

theorem addOption_append (h : name ∉ known.map (·.1)) (later : List (String × List String)) :
    addOption name value (known ++ later) = known ++ addOption name value later := by
  induction known with
  | nil => rfl
  | cons k known ih =>
    obtain ⟨hk, hr⟩ := not_or.mp (mt List.mem_cons.mpr h)
    rw [List.cons_append, addOption, if_neg (Ne.symm hk), ih hr]
    rfl

/-- The values of a group that has begun are added to it. -/
theorem foldl_addOption_group (h : name ∉ known.map (·.1)) (values more : List String) :
    (more.map (name, ·)).foldl (fun o p => addOption p.1 p.2 o) (known ++ [(name, values)]) =
      known ++ [(name, values ++ more)] := by
  induction more generalizing values with
  | nil => simp
  | cons value more ih =>
    have step : addOption name value (known ++ [(name, values)]) =
        known ++ [(name, values ++ [value])] := by
      rw [addOption_append h, addOption, if_pos rfl]
    rw [List.map_cons, List.foldl_cons, step, ih, List.append_assoc]
    rfl

/-- The pairs of one group after the other are grouped as they were. -/
theorem foldl_addOption_pairs (hn : ((known ++ options).map (·.1)).Nodup)
    (hg : ∀ o ∈ options, o.2 ≠ []) :
    (options.flatMap pairsOf).foldl (fun o p => addOption p.1 p.2 o) known = known ++ options := by
  induction options generalizing known with
  | nil => simp
  | cons o options ih =>
    obtain ⟨ho, hr⟩ := List.forall_mem_cons.mp hg
    obtain ⟨name, values⟩ := o
    obtain ⟨value, values, rfl⟩ := List.exists_cons_of_ne_nil ho
    have fresh : name ∉ known.map (·.1) := by
      rw [List.map_append, List.nodup_append] at hn
      exact fun hm => hn.2.2 _ hm _ List.mem_cons_self rfl
    -- the first value of a group begins it behind the groups before, the others join it there
    have begun : addOption name value known = known ++ [(name, [value])] := by
      have step : addOption name value (known ++ []) = known ++ addOption name value [] :=
        addOption_append fresh []
      rwa [List.append_nil] at step
    have group : (pairsOf (name, value :: values)).foldl (fun o p => addOption p.1 p.2 o) known =
        known ++ [(name, value :: values)] := by
      rw [pairsOf, List.map_cons, List.foldl_cons, begun, foldl_addOption_group fresh]
      rfl
    rw [List.flatMap_cons, List.foldl_append, group, ih (by simpa using hn) hr, List.append_assoc]
    rfl

theorem renderOptions_eq (options : List (String × List String)) :
    (renderOptions options).toList =
      let pairs := (sortedBy (·.1) options).flatMap pairsOf
      if pairs = [] then [] else '?' :: ("&".intercalate (pairs.map Text.Form.written)).toList := by
  have same : ((sortedBy (·.1) options).flatMap fun o =>
      o.2.map fun value => Text.Form.encode o.1 ++ "=" ++ Text.Form.encode value) =
      ((sortedBy (·.1) options).flatMap pairsOf).map Text.Form.written := by
    rw [List.map_flatMap]
    refine congrArg List.flatten (List.map_congr_left fun o _ => ?_)
    simp [pairsOf, Text.Form.written]
  have whole : renderOptions options =
      let pairs := ((sortedBy (·.1) options).flatMap pairsOf).map Text.Form.written
      if pairs.isEmpty then "" else "?" ++ String.intercalate "&" pairs := by
    rw [← same]
    rfl
  rw [whole]
  cases (sortedBy (·.1) options).flatMap pairsOf with
  | nil => rfl
  | cons p pairs => simp

@[simp] theorem renderOptions_nil : renderOptions [] = "" := by simp [renderOptions, sortedBy]

theorem begins_renderOptions (options : List (String × List String)) :
    Text.Begins ['?'] (renderOptions options).toList := by
  rw [renderOptions_eq]
  dsimp only
  split
  · exact .nil _
  · exact .cons (by decide) _

theorem at_not_mem_renderOptions (options : List (String × List String)) :
    '@' ∉ (renderOptions options).toList := by
  rw [renderOptions_eq]
  dsimp only
  split
  · exact List.not_mem_nil
  · exact List.not_mem_cons_of_ne_of_not_mem (by decide) (Text.Form.not_mem_written (by decide)
      (by decide) (by decide) (by decide) (by decide) _)

/-- Options that are in the order of their names are written as they were before. -/
theorem Grouped.renderOptions_sortedBy (h : Grouped options) :
    renderOptions (sortedBy (·.1) options) = renderOptions options := by
  rw [renderOptions, renderOptions, sortedBy_sortedBy h.names]

theorem Grouped.sorted (h : Grouped options) : Grouped (sortedBy (·.1) options) where
  names := ((sortedBy_perm _ options).map _).nodup_iff.mpr h.names
  groups o ho := h.groups o (mem_sortedBy.mp ho)
  values o ho := h.values o (mem_sortedBy.mp ho)

/-- Options are read back in the order of their names. -/
theorem readOptions_renderOptions (h : Grouped options) :
    readOptions (renderOptions options).toList = sortedBy (·.1) options := by
  have hs := h.sorted
  rw [renderOptions_eq]
  generalize sortedBy (·.1) options = sorted at hs
  have read : (sorted.flatMap pairsOf).foldl (fun o p => addOption p.1 p.2 o) [] = sorted :=
    foldl_addOption_pairs hs.names hs.groups
  have filled : ∀ p ∈ sorted.flatMap pairsOf, p.2 ≠ "" := by
    intro p hp
    obtain ⟨o, ho, hm⟩ := List.mem_flatMap.mp hp
    obtain ⟨value, hv, rfl⟩ := List.mem_map.mp hm
    exact hs.values o ho value hv
  dsimp only
  split
  · rename_i hn
    rw [hn] at read
    exact read
  · have free := Text.Form.not_mem_written (c := '\n') (by decide) (by decide) (by decide)
      (by decide) (by decide) (sorted.flatMap pairsOf)
    have line := List.takeWhile_eq_self_iff.mpr (Text.all_ne_of_not_mem free)
    rw [readOptions, line, Text.Form.filledPairs_written filled, read]

end Writing

end TeamAccess.DatabaseUrl
