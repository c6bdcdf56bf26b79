import Mathlib.Tactic.SplitIfs
import TeamAccess.Proofs.Text.Hex
import TeamAccess.Text.Quoted

/-! # Quoted texts are told apart

Every character between the quotes can be read back, and none is written with the closing quote in
front. So a quoted text ends in one place only, whatever follows, and no two texts are quoted alike.
-/

namespace TeamAccess.Text.Quoted

variable {m a b c : Char} {x y : List Char}

/-- The quotes that texts are shown in. -/
def IsMark (m : Char) : Prop := m = '\'' ∨ m = '"'

theorem isMark_mark (text : List Char) : IsMark (mark text) := by
  unfold mark
  split
  · exact .inr rfl
  · exact .inl rfl

/-- The character of a code point in some digits, and the text after them. -/
def readCode (width : Nat) (text : List Char) : Option (Char × List Char) :=
  (Hex.read? (text.take width)).map fun n => (Char.ofNat n, text.drop width)

/-- The first character of a text between quotes, and the text after it. -/
def readChar : List Char → Option (Char × List Char)
  | '\\' :: 'n' :: rest => some ('\n', rest)
  | '\\' :: 'r' :: rest => some ('\r', rest)
  | '\\' :: 't' :: rest => some ('\t', rest)
  | '\\' :: 'x' :: rest => readCode 2 rest
  | '\\' :: 'u' :: rest => readCode 4 rest
  | '\\' :: 'U' :: rest => readCode 8 rest
  | '\\' :: c :: rest => some (c, rest)
  | c :: rest => some (c, rest)
  | [] => none

theorem readCode_write {width : Nat} (h : c.toNat < 16 ^ width) (rest : List Char) :
    readCode width (Hex.write width c.toNat ++ rest) = some (c, rest) := by
  have taken : (Hex.write width c.toNat ++ rest).take width = Hex.write width c.toNat :=
    List.take_left' (Hex.length_write _ _)
  have dropped : (Hex.write width c.toNat ++ rest).drop width = rest :=
    List.drop_left' (Hex.length_write _ _)
  rw [readCode, taken, dropped, Hex.read?_write, Nat.mod_eq_of_lt h, Option.map_some,
    Char.ofNat_toNat]

/-- Every character between the quotes is read back. -/
theorem readChar_escape (hm : IsMark m) (c : Char) (rest : List Char) :
    readChar (escape m c ++ rest) = some (c, rest) := by
  unfold escape
  split_ifs with hq hn hr ht hp hx hu
  · have quoted : c = '\'' ∨ c = '"' ∨ c = '\\' := by
      rw [Bool.or_eq_true, decide_eq_true_eq, decide_eq_true_eq] at hq
      unfold IsMark at hm
      grind
    rcases quoted with rfl | rfl | rfl <;> rfl
  · rw [hn]; rfl
  · rw [hr]; rfl
  · rw [ht]; rfl
  · have plain : c ≠ '\\' := by simp_all
    simp [readChar, plain]
  · exact readCode_write hx rest
  · exact readCode_write hu rest
  · have valid : c.toNat < 0xD800 ∨ (0xDFFF < c.toNat ∧ c.toNat < 0x110000) := c.valid
    exact @readCode_write c 8 (by omega) rest

theorem escape_append_inj (hm : IsMark m) (h : escape m a ++ x = escape m b ++ y) :
    a = b ∧ x = y := by
  have read := (readChar_escape hm a x).symm.trans ((congrArg readChar h).trans
    (readChar_escape hm b y))
  exact Prod.mk.inj (Option.some.inj read)

/-- What a character is written as begins with a backslash or is the character itself. -/
theorem escape_cons (m c : Char) :
    ∃ d rest, escape m c = d :: rest ∧ (d = '\\' ∨ d = c ∧ c ≠ m) := by
  unfold escape
  split_ifs
  all_goals refine ⟨_, _, rfl, ?_⟩
  all_goals simp_all

/-- No character between the quotes is taken for the closing one. -/
theorem escape_append_ne (hm : IsMark m) (c : Char) : escape m c ++ x ≠ m :: y := by
  obtain ⟨d, rest, he, hd⟩ := escape_cons m c
  rw [he]
  intro h
  obtain ⟨rfl, -⟩ := List.cons.inj h
  rcases hd with rfl | ⟨rfl, hn⟩
  · rcases hm with hm | hm <;> exact absurd hm (by decide)
  · exact hn rfl

theorem flatMap_escape_inj (hm : IsMark m) {s t : List Char}
    (h : s.flatMap (escape m) ++ m :: x = t.flatMap (escape m) ++ m :: y) : s = t ∧ x = y := by
  induction s generalizing t with
  | nil =>
    cases t with
    | nil => exact ⟨rfl, (List.cons.inj h).2⟩
    | cons b t =>
      rw [List.flatMap_cons, List.append_assoc] at h
      exact absurd h.symm (escape_append_ne hm b)
  | cons a s ih =>
    rw [List.flatMap_cons, List.append_assoc] at h
    cases t with
    | nil => exact absurd h (escape_append_ne hm a)
    | cons b t =>
      rw [List.flatMap_cons, List.append_assoc] at h
      obtain ⟨rfl, rest⟩ := escape_append_inj hm h
      obtain ⟨rfl, rfl⟩ := ih rest
      exact ⟨rfl, rfl⟩

/-- A quoted text is told apart from what follows it. -/
theorem quote_append_inj {s t : String} (h : (quote s).toList ++ x = (quote t).toList ++ y) :
    s = t ∧ x = y := by
  simp only [quote, String.toList_ofList, List.cons_append, List.append_assoc,
    List.nil_append, List.cons.injEq] at h
  obtain ⟨hm, h⟩ := h
  rw [← hm] at h
  obtain ⟨he, hx⟩ := flatMap_escape_inj (isMark_mark _) h
  exact ⟨String.toList_injective he, hx⟩

theorem quote_cons (s : String) : ∃ rest, (quote s).toList = mark s.toList :: rest := by
  simp [quote]

end TeamAccess.Text.Quoted
