import Mathlib.Data.List.Nodup
import TeamAccess.Store.Basic

/-! # Sorting by a name

Sorting rearranges the rows. Where no two rows have the same name, it does not matter in which order
they were.
-/

namespace TeamAccess

variable {α : Type} {xs : List α} {a : α} {name : α → String}

theorem sortedBy_perm (name : α → String) (xs : List α) : (sortedBy name xs).Perm xs :=
  List.mergeSort_perm xs _

@[simp] theorem mem_sortedBy : a ∈ sortedBy name xs ↔ a ∈ xs := (sortedBy_perm name xs).mem_iff

theorem sortedBy_pairwise (name : α → String) (xs : List α) :
    (sortedBy name xs).Pairwise fun a b => name a ≤ name b := by
  have trans : ∀ a b c : α, decide (name a ≤ name b) = true → decide (name b ≤ name c) = true →
      decide (name a ≤ name c) = true := by
    intro a b c hab hbc
    rw [decide_eq_true_eq] at *
    exact String.le_trans hab hbc
  have total : ∀ a b : α, (decide (name a ≤ name b) || decide (name b ≤ name a)) = true := by
    intro a b
    rw [Bool.or_eq_true, decide_eq_true_eq, decide_eq_true_eq]
    exact String.le_total _ _
  exact (List.pairwise_mergeSort trans total xs).imp of_decide_eq_true

/-- Where no two rows have the same name, sorting by it gives a strict order. -/
theorem sortedBy_pairwise_lt (h : (xs.map name).Nodup) :
    (sortedBy name xs).Pairwise fun a b => name a < name b := by
  have hn : ((sortedBy name xs).map name).Nodup :=
    ((sortedBy_perm name xs).map name).nodup_iff.mpr h
  refine ((sortedBy_pairwise name xs).and (List.pairwise_map.mp hn)).imp ?_
  rintro a b ⟨hle, hne⟩
  exact Std.lt_of_le_of_ne hle hne

/-- The order of rows with different names does not matter. -/
theorem sortedBy_eq_of_perm {ys : List α} (hp : xs.Perm ys) (hn : (ys.map name).Nodup) :
    sortedBy name xs = sortedBy name ys := by
  have hs : (sortedBy name xs).Perm (sortedBy name ys) :=
    (sortedBy_perm name xs).trans (hp.trans (sortedBy_perm name ys).symm)
  refine hs.eq_of_pairwise ?_ (sortedBy_pairwise name xs) (sortedBy_pairwise name ys)
  intro a b ha hb hab hba
  have ha : a ∈ ys := mem_sortedBy.mp (hs.mem_iff.mp ha)
  exact List.inj_on_of_nodup_map hn ha (mem_sortedBy.mp hb) (Std.le_antisymm hab hba)

theorem sortedBy_sortedBy (h : (xs.map name).Nodup) :
    sortedBy name (sortedBy name xs) = sortedBy name xs :=
  sortedBy_eq_of_perm (sortedBy_perm name xs) h

end TeamAccess
