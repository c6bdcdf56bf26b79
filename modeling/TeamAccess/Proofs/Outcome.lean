import Mathlib.Data.List.Basic

/-! # Outcomes of what can fail

A chain of steps succeeds exactly if each step does, and a step taken for every item of a list
succeeds exactly if it does for each of them.
-/

namespace TeamAccess

variable {ε ε' α β : Type} {x : Except ε α} {f : α → Except ε β} {b : β}

theorem bind_eq_ok_iff : (x >>= f) = .ok b ↔ ∃ a, x = .ok a ∧ f a = .ok b := by
  cases x with
  | ok a => exact ⟨fun h => ⟨a, rfl, h⟩, fun ⟨_, ha, h⟩ => by cases ha; exact h⟩
  | error e => exact ⟨nofun, fun ⟨_, ha, _⟩ => nomatch ha⟩

theorem check_bind_eq_ok_iff {x : Except ε Unit} {f : Unit → Except ε β} :
    (x >>= f) = .ok b ↔ x = .ok () ∧ f () = .ok b := by
  rw [bind_eq_ok_iff]
  exact ⟨fun ⟨_, h⟩ => h, fun h => ⟨(), h⟩⟩

theorem mapError_eq_ok_iff {g : ε → ε'} {a : α} : x.mapError g = .ok a ↔ x = .ok a := by
  cases x with
  | ok a' => exact ⟨fun h => by cases h; rfl, fun h => by cases h; rfl⟩
  | error e => exact ⟨nofun, nofun⟩

theorem mapM_eq_ok_iff {items : List α} {results : List β} {P : α → Prop} {g : α → β}
    (h : ∀ a ∈ items, ∀ b, f a = .ok b ↔ P a ∧ g a = b) :
    items.mapM f = .ok results ↔ (∀ a ∈ items, P a) ∧ items.map g = results := by
  induction items generalizing results with
  | nil => simp [pure, Except.pure]
  | cons a items ih =>
    obtain ⟨ha, hr⟩ := List.forall_mem_cons.mp h
    simp only [List.mapM_cons, bind_eq_ok_iff, ha, ih hr, pure, Except.pure, Except.ok.injEq,
      List.forall_mem_cons, List.map_cons]
    constructor
    · rintro ⟨_, ⟨hp, rfl⟩, _, ⟨hq, rfl⟩, rfl⟩
      exact ⟨⟨hp, hq⟩, rfl⟩
    · rintro ⟨⟨hp, hq⟩, rfl⟩
      exact ⟨_, ⟨hp, rfl⟩, _, ⟨hq, rfl⟩, rfl⟩

end TeamAccess
