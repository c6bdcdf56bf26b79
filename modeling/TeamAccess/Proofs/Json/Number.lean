import Mathlib.Data.List.TakeWhile
import TeamAccess.Json.Parser
import TeamAccess.Json.Printer

/-! # Reading back numbers

The digits of a number are read as long as digits follow. An integer ends where no fraction and no
exponent begins; a number that is not one is written with an exponent, so that it is not taken for
an integer.
-/

namespace TeamAccess.Json

/-- What may follow a value: the end of the text, a comma or a closing bracket. -/
inductive Ends : List Char → Prop where
  | nil : Ends []
  | comma (rest : List Char) : Ends (',' :: rest)
  | bracket (rest : List Char) : Ends (']' :: rest)
  | brace (rest : List Char) : Ends ('\x7d' :: rest)

variable {negative : Bool} {left n : Nat} {c : Char} {rest : List Char}

theorem Ends.takeWhile_isDigit (h : Ends rest) : rest.takeWhile isDigit = [] := by
  cases h <;> rfl

theorem Ends.readFraction (h : Ends rest) : readFraction rest = ([], rest) := by
  cases h <;> rfl

theorem Ends.readExponent (h : Ends rest) : readExponent rest = (none, rest) := by
  cases h <;> rfl

section Digits

theorem isDigit_of_mem_toDigits (h : c ∈ Nat.toDigits 10 n) : isDigit c = true := by
  have hd := Nat.isDigit_of_mem_toDigits (by decide) (by decide) h
  simpa [Char.isDigit, isDigit, Char.le_def] using hd

theorem digitsValue_toDigits (n : Nat) : digitsValue (Nat.toDigits 10 n) = n := by
  have h : Nat.ofDigitChars 10 (Nat.toDigits 10 n) 0 = n := Nat.ofDigitChars_ten_toDigits
  simpa [Nat.ofDigitChars, digitsValue, Nat.mul_comm] using h

theorem toDigits_cons (n : Nat) : ∃ c rest, Nat.toDigits 10 n = c :: rest ∧ isDigit c = true := by
  obtain ⟨c, rest, h⟩ := List.exists_cons_of_ne_nil (Nat.toDigits_ne_nil (n := n) (b := 10))
  exact ⟨c, rest, h, isDigit_of_mem_toDigits (h ▸ List.mem_cons_self)⟩

/-- No number but zero begins with the digit zero. -/
theorem toDigits_head (h : 0 < n) : ∃ c rest, Nat.toDigits 10 n = c :: rest ∧ c ≠ '0' := by
  induction n using Nat.base_induction 10 (by decide) with
  | single m hm =>
    exact ⟨m.digitChar, [], Nat.toDigits_of_lt_base hm, mt Nat.digitChar_eq_zero.mp (by omega)⟩
  | digit m k hk hm ih =>
    obtain ⟨c, rest, hc, hz⟩ := ih hm
    have hd := Nat.toDigits_append_toDigits (by decide : 1 < 10) hm hk
    exact ⟨c, rest ++ Nat.toDigits 10 k, by rw [← hd, hc, List.cons_append], hz⟩

theorem takeWhile_toDigits (h : rest.takeWhile isDigit = []) (n : Nat) :
    (Nat.toDigits 10 n ++ rest).takeWhile isDigit = Nat.toDigits 10 n := by
  rw [List.takeWhile_append_of_pos fun _ hc => isDigit_of_mem_toDigits hc, h, List.append_nil]

theorem dropWhile_toDigits (h : rest.takeWhile isDigit = []) (n : Nat) :
    (Nat.toDigits 10 n ++ rest).dropWhile isDigit = rest := by
  rw [List.dropWhile_append_of_pos fun _ hc => isDigit_of_mem_toDigits hc]
  simpa [h] using rest.takeWhile_append_dropWhile (p := isDigit)

end Digits

section First

theorem ne_of_isDigit {d : Char} (hc : isDigit c = true) (hd : isDigit d = false) : c ≠ d := by
  rintro rfl
  rw [hc] at hd
  cases hd

/-- The first characters of numbers. -/
def StartsNumber (c : Char) : Prop := c = '-' ∨ isDigit c = true

theorem StartsNumber.ne {d : Char} (h : StartsNumber c) (hm : d ≠ '-') (hd : isDigit d = false) :
    c ≠ d := by
  rcases h with rfl | h
  · exact hm.symm
  · exact ne_of_isDigit h hd

theorem StartsNumber.blank_lt (h : StartsNumber c) : ' ' < c := by
  rcases h with rfl | h
  · decide
  · simp only [isDigit, Bool.and_eq_true, decide_eq_true_eq] at h
    exact Nat.lt_of_lt_of_le (by decide : ' '.toNat < '0'.toNat) h.1

theorem sign_toDigits_cons (negative : Bool) (n : Nat) (text : List Char) :
    ∃ c rest, (if negative then ['-'] else []) ++ Nat.toDigits 10 n ++ text = c :: rest ∧
      StartsNumber c := by
  cases negative with
  | true => exact ⟨_, _, rfl, .inl rfl⟩
  | false =>
    obtain ⟨c, rest, h, hc⟩ := toDigits_cons n
    exact ⟨c, rest ++ text, by simp [h], .inr hc⟩

theorem printInt_eq (n : Int) :
    printInt n = (if n < 0 then ['-'] else []) ++ Nat.toDigits 10 n.natAbs := by
  unfold printInt
  split <;> rfl

theorem printInt_cons (n : Int) : ∃ c rest, printInt n = c :: rest ∧ StartsNumber c := by
  simpa [printInt_eq] using sign_toDigits_cons (decide (n < 0)) n.natAbs []

theorem printDecimal_cons (d : Decimal) : ∃ c rest, printDecimal d = c :: rest ∧ StartsNumber c :=
  sign_toDigits_cons d.negative d.digits _

end First

/-- The exponent that is written after the digits is read back. -/
theorem readExponent_printInt (h : Ends rest) (e : Int) :
    readExponent ('e' :: (printInt e ++ rest)) = (some e, rest) := by
  unfold printInt
  generalize hn : e.natAbs = n
  obtain ⟨c, cs, hd, hc⟩ := toDigits_cons n
  have ht := takeWhile_toDigits h.takeWhile_isDigit n
  have hr := dropWhile_toDigits h.takeWhile_isDigit n
  have hv := digitsValue_toDigits n
  split
  · simp [readExponent, ht, hr, hv]
    omega
  · have hm : c ≠ '-' := ne_of_isDigit hc (by decide)
    have hp : c ≠ '+' := ne_of_isDigit hc (by decide)
    simp only [hd, List.cons_append] at ht hr hv ⊢
    simp [readExponent, ht, hr, hv, hm, hp]
    omega

/-- The digits of a whole part are read up to what follows them. -/
theorem readMagnitude_toDigits (h : rest.takeWhile isDigit = []) :
    readMagnitude negative left (Nat.toDigits 10 n ++ rest) =
      let (fraction, rest) := readFraction rest
      let (power, rest) := readExponent rest
      if fraction.isEmpty && power.isNone then
        if maxDigits < (Nat.toDigits 10 n).length then
          .error ⟨.tooManyDigits (Nat.toDigits 10 n).length, left⟩
        else .ok (.int (if negative then -n else n), rest)
      else
        let digits := digitsValue (Nat.toDigits 10 n ++ fraction)
        .ok (.decimal ⟨negative, digits, power.getD 0 - fraction.length⟩, rest) := by
  have ht := takeWhile_toDigits h n
  have hr := dropWhile_toDigits h n
  have hv := digitsValue_toDigits n
  -- a leading zero is read alone, and zero is the only number that has one
  rcases Nat.eq_zero_or_pos n with rfl | hn
  · rfl
  · obtain ⟨c, cs, hd, hz⟩ := toDigits_head hn
    simp only [hd, List.cons_append] at ht hr hv ⊢
    simp [readMagnitude, ht, hr, hv, hz]

theorem readMagnitude_int (h : Ends rest) (hl : (Nat.toDigits 10 n).length ≤ maxDigits) :
    readMagnitude negative left (Nat.toDigits 10 n ++ rest) =
      .ok (.int (if negative then -n else n), rest) := by
  rw [readMagnitude_toDigits h.takeWhile_isDigit, h.readFraction]
  dsimp only
  rw [h.readExponent]
  exact if_neg (Nat.not_lt.mpr hl)

theorem readMagnitude_decimal (h : Ends rest) (e : Int) :
    readMagnitude negative left (Nat.toDigits 10 n ++ 'e' :: (printInt e ++ rest)) =
      .ok (.decimal ⟨negative, n, e⟩, rest) := by
  have hf : readFraction ('e' :: (printInt e ++ rest)) = ([], 'e' :: (printInt e ++ rest)) := rfl
  rw [readMagnitude_toDigits rfl, hf]
  dsimp only
  rw [readExponent_printInt h, List.append_nil, digitsValue_toDigits]
  simp

theorem readScalar_digit (hc : isDigit c = true) (rest : List Char) :
    readScalar (c :: rest) = readMagnitude false (rest.length + 1) (c :: rest) := by
  have hn : c ≠ 'n' := ne_of_isDigit hc (by decide)
  have ht : c ≠ 't' := ne_of_isDigit hc (by decide)
  have hf : c ≠ 'f' := ne_of_isDigit hc (by decide)
  have hN : c ≠ 'N' := ne_of_isDigit hc (by decide)
  have hI : c ≠ 'I' := ne_of_isDigit hc (by decide)
  have hm : c ≠ '-' := ne_of_isDigit hc (by decide)
  simp [readScalar, hn, ht, hf, hN, hI, hm]

theorem readScalar_minus (hc : isDigit c = true) (rest : List Char) :
    readScalar ('-' :: c :: rest) = readMagnitude true (rest.length + 2) (c :: rest) := by
  have hI : c ≠ 'I' := ne_of_isDigit hc (by decide)
  simp [readScalar, hI]

/-- A number is read with the sign that was written before it. -/
theorem readScalar_digits (n : Nat) (negative : Bool) (rest : List Char) :
    ∃ left, readScalar ((if negative then ['-'] else []) ++ (Nat.toDigits 10 n ++ rest)) =
      readMagnitude negative left (Nat.toDigits 10 n ++ rest) := by
  obtain ⟨c, cs, hd, hc⟩ := toDigits_cons n
  rw [hd]
  cases negative with
  | false => exact ⟨_, readScalar_digit hc _⟩
  | true => exact ⟨_, readScalar_minus hc _⟩

/-- An integer is read back if the reader takes that many digits. -/
theorem readScalar_printInt (h : Ends rest) {n : Int}
    (hl : (Nat.toDigits 10 n.natAbs).length ≤ maxDigits) :
    readScalar (printInt n ++ rest) = .ok (.int n, rest) := by
  obtain ⟨left, hs⟩ := readScalar_digits n.natAbs (decide (n < 0)) rest
  simp only [decide_eq_true_eq, ← List.append_assoc, ← printInt_eq] at hs
  have hv : (if decide (n < 0) then -(n.natAbs : Int) else n.natAbs) = n := by
    simp only [decide_eq_true_eq]
    split <;> omega
  rw [hs, readMagnitude_int h hl, hv]

/-- A number that is not an integer is read back digit by digit. -/
theorem readScalar_printDecimal (h : Ends rest) (d : Decimal) :
    readScalar (printDecimal d ++ rest) = .ok (.decimal d, rest) := by
  obtain ⟨left, hs⟩ := readScalar_digits d.digits d.negative ('e' :: (printInt d.exponent ++ rest))
  rw [readMagnitude_decimal h] at hs
  simpa [printDecimal] using hs

end TeamAccess.Json
