import TeamAccess.Log.Threshold
import TeamAccess.Proofs.Outcome

/-! # The level that a text configures

A text configures the level that it names in capitals or, if it names none, INFO. Two texts that
name something else of the pipeline are refused.
-/

namespace TeamAccess.Log

variable {text : String} {n m : Nat}

/-- The weight of the level that a text names, or of INFO if it names none. -/
inductive Configured (text : String) : Nat → Prop where
  | named {n : Nat} : (inCapitals text, n) ∈ thresholds → Configured text n
  | unnamed : (∀ n, (inCapitals text, n) ∉ thresholds) → Configured text Level.info.weight

/-- The text goes by the name of a line format or of a table of formats. -/
def Misnamed (text : String) : Prop :=
  inCapitals text = "BASIC_FORMAT" ∨ inCapitals text = "_STYLES"

instance (text : String) : Decidable (Misnamed text) := inferInstanceAs (Decidable (_ ∨ _))

theorem find?_thresholds :
    ∀ entry ∈ thresholds, thresholds.find? (·.1 = entry.1) = some entry := by decide

theorem configured_iff : Configured text n ↔
    ((thresholds.find? (·.1 = inCapitals text)).map (·.2)).getD Level.info.weight = n := by
  constructor
  · rintro (hm | hn)
    · rw [find?_thresholds _ hm]
      rfl
    · have none : thresholds.find? (·.1 = inCapitals text) = none := by
        refine List.find?_eq_none.mpr fun entry he hc => hn entry.2 ?_
        rwa [← of_decide_eq_true hc]
      rw [none]
      rfl
  · rintro rfl
    cases hf : thresholds.find? (·.1 = inCapitals text) with
    | none =>
      refine .unnamed fun n hm => ?_
      simpa using List.find?_eq_none.mp hf _ hm
    | some entry =>
      have named : entry.1 = inCapitals text := by simpa using List.find?_some hf
      exact .named (named ▸ List.mem_of_find?_eq_some hf)

theorem exists_configured (text : String) : ∃ n, Configured text n := ⟨_, configured_iff.mpr rfl⟩

theorem Configured.unique (h : Configured text n) (h' : Configured text m) : n = m :=
  (configured_iff.mp h).symm.trans (configured_iff.mp h')

theorem ofName?_eq_none_iff : NoLevel.ofName? (inCapitals text) = none ↔ ¬ Misnamed text := by
  unfold NoLevel.ofName? Misnamed
  split <;> simp_all

theorem threshold_eq_ok_iff : threshold text = .ok n ↔ ¬ Misnamed text ∧ Configured text n := by
  rw [← ofName?_eq_none_iff, configured_iff, threshold]
  cases NoLevel.ofName? (inCapitals text) <;> simp

end TeamAccess.Log
