import Mathlib.Algebra.Group.Nat.Defs
import Mathlib.Data.List.TakeWhile
import TeamAccess.Text.Numeral

/-! # Reading back whole numbers

A number that is read has no more digits than the reader takes, and a number with no more digits is
read back from its decimal text.
-/

namespace TeamAccess.Text.Numeral

variable {n : Nat} {limit : Nat} {digits : List Nat} {text : List Char}

section Digits

theorem digit?_le {c : Char} {d : Nat} (h : digit? c = some d) : d ≤ 9 := by
  simp only [digit?, Option.map_eq_some_iff] at h
  obtain ⟨z, hz, rfl⟩ := h
  have hr := List.find?_some hz
  simp only [Bool.and_eq_true, decide_eq_true_eq] at hr
  omega

theorem toNat_of_isDigit {c : Char} (h : c.isDigit = true) : 48 ≤ c.toNat ∧ c.toNat ≤ 57 := by
  simpa [Char.isDigit, Char.le_def, UInt32.le_iff_toNat_le] using h

/-- Of the digits of all scripts the ASCII ones come first. -/
theorem digit?_of_isDigit {c : Char} (h : c.isDigit = true) :
    digit? c = some (c.toNat - '0'.toNat) := by
  simp [digit?, digitZeros, toNat_of_isDigit h]

theorem isSpace_of_isDigit {c : Char} (h : c.isDigit = true) : isSpace c = false := by
  have hd := toNat_of_isDigit h
  simp only [isSpace, isBlank, inRanges, Bool.and_eq_false_iff, List.any_eq_false]
  left
  simp
  omega

theorem ungroup_le {prior : Bool} (h : ungroup digit? prior text = some digits) :
    ∀ d ∈ digits, d ≤ 9 := by
  fun_induction ungroup digit? prior text generalizing digits with
  | case1 =>
    cases h
    nofun
  | case2 => cases h
  | case3 rest ih => exact ih h
  | case4 => cases h
  | case5 => cases h
  | case6 prior c rest hc d hd ih =>
    obtain ⟨others, ho, rfl⟩ := Option.map_eq_some_iff.mp h
    exact List.forall_mem_cons.mpr ⟨digit?_le hd, ih ho⟩

theorem ungroup_digits {prior : Bool} (h : ∀ c ∈ text, c.isDigit = true)
    (hp : prior = true ∨ text ≠ []) :
    ungroup digit? prior text = some (text.map fun c => c.toNat - '0'.toNat) := by
  induction text generalizing prior with
  | nil => simp [ungroup, hp.resolve_right (fun hn => hn rfl)]
  | cons c rest ih =>
    obtain ⟨hc, hr⟩ := List.forall_mem_cons.mp h
    have no : c ≠ '_' := by
      rintro rfl
      cases hc
    rw [ungroup, digit?_of_isDigit hc]
    · simp [ih hr (.inl rfl)]
    · exact no

theorem foldl_digits_lt (h : ∀ d ∈ digits, d ≤ 9) (n : Nat) :
    digits.foldl (fun n d => n * 10 + d) n < (n + 1) * 10 ^ digits.length := by
  induction digits generalizing n with
  | nil => simp
  | cons d digits ih =>
    obtain ⟨hd, hr⟩ := List.forall_mem_cons.mp h
    calc digits.foldl (fun n d => n * 10 + d) (n * 10 + d)
        < (n * 10 + d + 1) * 10 ^ digits.length := ih hr _
      _ ≤ ((n + 1) * 10) * 10 ^ digits.length := Nat.mul_le_mul_right _ (by omega)
      _ = (n + 1) * 10 ^ (d :: digits).length := by
        rw [List.length_cons, Nat.pow_succ, Nat.mul_assoc, Nat.mul_comm 10]

theorem ofDigits_lt (h : ∀ d ∈ digits, d ≤ 9) : ofDigits digits < 10 ^ digits.length := by
  simpa [ofDigits] using foldl_digits_lt h 0

theorem ofDigits_toDigits (n : Nat) :
    ofDigits ((Nat.toDigits 10 n).map fun c => c.toNat - '0'.toNat) = n := by
  have h : Nat.ofDigitChars 10 (Nat.toDigits 10 n) 0 = n := Nat.ofDigitChars_ten_toDigits
  rw [ofDigits, List.foldl_map]
  simpa [Nat.ofDigitChars, Nat.mul_comm] using h

end Digits

theorem trim_of_none {p : Char → Bool} (h : ∀ c ∈ text, p c = false) : trim p text = text := by
  have front (cs : List Char) (hc : ∀ c ∈ cs, p c = false) : cs.dropWhile p = cs := by
    cases cs with
    | nil => rfl
    | cons c cs => rw [List.dropWhile_cons, hc c List.mem_cons_self]; rfl
  rw [trim, front text h, front _ fun c hc => h c (List.mem_reverse.mp hc), List.reverse_reverse]

/-- The reader takes no number with more digits than it allows. -/
theorem length_toDigits_of_liberal? {s : String} {n : Int} (h : liberal? s = some n) :
    (Nat.toDigits 10 n.natAbs).length ≤ maxDigits := by
  unfold liberal? signed? at h
  generalize sign (trim isSpace s.toList) = parts at h
  obtain ⟨negative, body⟩ := parts
  simp only [Option.bind_eq_bind, Option.bind_eq_some_iff] at h
  obtain ⟨digits, hd, h⟩ := h
  split at h
  · cases h
  · rename_i hl
    have small : ofDigits digits < 10 ^ maxDigits :=
      Nat.lt_of_lt_of_le (ofDigits_lt (ungroup_le hd))
        (Nat.pow_le_pow_right (by decide) (Nat.not_lt.mp hl))
    have same : n.natAbs = ofDigits digits := by
      cases negative <;> cases h <;> simp
    rw [same]
    exact (Nat.length_toDigits_le_iff (by decide) (by decide)).mpr small

theorem toList_toString (n : Int) :
    (toString n).toList = (if n < 0 then ['-'] else []) ++ Nat.toDigits 10 n.natAbs := by
  cases n with
  | ofNat m =>
    have whole : toString (Int.ofNat m) = m.repr := rfl
    rw [whole, Nat.toList_repr, if_neg (by simp)]
    rfl
  | negSucc m =>
    have signed : toString (Int.negSucc m) = "-" ++ m.succ.repr := rfl
    rw [signed, String.toList_append, Nat.toList_repr, if_pos (by omega)]
    rfl

theorem isDigit_of_mem_toDigits {c : Char} (h : c ∈ Nat.toDigits 10 n) : c.isDigit = true :=
  Nat.isDigit_of_mem_toDigits (by decide) (by decide) h

theorem not_mem_toString {c : Char} (hd : c.isDigit = false) (hs : c ≠ '-') (n : Int) :
    c ∉ (toString n).toList := by
  have digits : c ∉ Nat.toDigits 10 n.natAbs := fun hm => by
    rw [isDigit_of_mem_toDigits hm] at hd
    cases hd
  rw [toList_toString]
  split <;> simp [digits, hs]

theorem toString_ne_empty (n : Int) : toString n ≠ "" := by
  intro he
  have digits : Nat.toDigits 10 n.natAbs ≠ [] := Nat.toDigits_ne_nil
  have none := congrArg String.toList he
  rw [toList_toString] at none
  exact digits (List.append_eq_nil_iff.mp none).2

theorem sign_toString (n : Int) :
    sign (toString n).toList = (decide (n < 0), Nat.toDigits 10 n.natAbs) := by
  rw [toList_toString]
  split
  · rename_i hn
    rw [decide_eq_true hn]
    rfl
  · rename_i hn
    obtain ⟨c, cs, hd⟩ := List.exists_cons_of_ne_nil (Nat.toDigits_ne_nil (n := n.natAbs) (b := 10))
    have hc : c.isDigit = true := isDigit_of_mem_toDigits (hd ▸ List.mem_cons_self)
    have plain (d : Char) (h : d.isDigit = false) : c ≠ d := by
      rintro rfl
      rw [hc] at h
      cases h
    rw [decide_eq_false hn, hd, List.nil_append, sign]
    · exact fun _ h => plain '-' rfl (List.cons.inj h).1
    · exact fun _ h => plain '+' rfl (List.cons.inj h).1

theorem isSpace_toString {n : Int} : ∀ c ∈ (toString n).toList, isSpace c = false := by
  rw [toList_toString, List.forall_mem_append]
  constructor
  · split
    · exact List.forall_mem_singleton.mpr (by decide)
    · nofun
  · exact fun c hc => isSpace_of_isDigit (isDigit_of_mem_toDigits hc)

/-- A number with no more digits is read back from its text. -/
theorem liberal?_toString {n : Int} (h : (Nat.toDigits 10 n.natAbs).length ≤ maxDigits) :
    liberal? (toString n) = some n := by
  have whole : ungroup digit? false (Nat.toDigits 10 n.natAbs) =
      some ((Nat.toDigits 10 n.natAbs).map fun c => c.toNat - '0'.toNat) :=
    ungroup_digits (fun _ hc => isDigit_of_mem_toDigits hc) (.inr Nat.toDigits_ne_nil)
  rw [liberal?, trim_of_none isSpace_toString, signed?, sign_toString]
  simp only [whole, Option.bind_eq_bind, Option.bind_some, List.length_map, ofDigits_toDigits,
    if_neg (Nat.not_lt.mpr h), decide_eq_true_eq]
  refine congrArg some ?_
  split <;> omega

end TeamAccess.Text.Numeral
