import Mathlib.Algebra.Group.Nat.Defs
import TeamAccess.Text.Hex

/-! # Reading back hexadecimal digits

What is written is read back up to the width. Nothing but digits is read.
-/

namespace TeamAccess.Text.Hex

theorem digit?_digitChar : ∀ n, n < 16 → digit? (Nat.digitChar n) = some n := by decide

@[simp] theorem length_write (width n : Nat) : (write width n).length = width := by
  induction width generalizing n with
  | zero => rfl
  | succ k ih => simp [write, ih]

theorem readFrom_append (n : Nat) (a b : List Char) :
    readFrom n (a ++ b) = (readFrom n a).bind (readFrom · b) := by
  induction a generalizing n with
  | nil => rfl
  | cons c rest ih =>
    simp only [List.cons_append, readFrom]
    cases digit? c with
    | none => rfl
    | some d => exact ih _

theorem read?_write (width n : Nat) : read? (write width n) = some (n % 16 ^ width) := by
  unfold read?
  induction width generalizing n with
  | zero => simp [write, readFrom, Nat.mod_one]
  | succ k ih =>
    rw [write, readFrom_append, ih]
    simp only [Option.bind_some, readFrom, digit?_digitChar _ (Nat.mod_lt n (by decide : 16 > 0))]
    rw [Nat.pow_succ, Nat.mul_comm (16 ^ k), Nat.mod_mul, Nat.add_comm, Nat.mul_comm 16]

theorem digit?_of_readFrom {n m : Nat} {cs : List Char} (h : readFrom n cs = some m) :
    ∀ c ∈ cs, digit? c ≠ none := by
  induction cs generalizing n with
  | nil => exact nofun
  | cons c cs ih =>
    rw [readFrom] at h
    cases hd : digit? c with
    | none => simp [hd] at h
    | some d =>
      rw [hd] at h
      exact List.forall_mem_cons.mpr ⟨by simp [hd], ih h⟩

end TeamAccess.Text.Hex
