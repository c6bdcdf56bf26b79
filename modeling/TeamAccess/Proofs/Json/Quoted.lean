import Mathlib.Tactic.SplitIfs
import TeamAccess.Json.Parser
import TeamAccess.Json.Printer
import TeamAccess.Proofs.Text.Hex

/-! # Reading back quoted texts

A text in quotes is written character by character, each as itself, as a short escape or as one or
two code units. Reading takes the code units one by one and joins the pairs again.
-/

namespace TeamAccess.Json

/-- The code units of a character. -/
def units (c : Char) : List Nat :=
  if c.toNat < 0x10000 then [c.toNat]
  else [0xD800 + (c.toNat - 0x10000) / 0x400, 0xDC00 + (c.toNat - 0x10000) % 0x400]

theorem toNat_not_surrogate (c : Char) :
    c.toNat < 0xD800 ∨ (0xDFFF < c.toNat ∧ c.toNat < 0x110000) := c.valid

theorem scalar_toNat (c : Char) : Text.Encoding.scalar c.toNat = c := by
  have h : ¬ (0xD800 ≤ c.toNat ∧ c.toNat < 0xE000) := by
    have := toNat_not_surrogate c
    omega
  simp [Text.Encoding.scalar, h]

theorem joinUnits_units (c : Char) (rest : List Nat) :
    Text.Encoding.joinUnits (units c ++ rest) = c :: Text.Encoding.joinUnits rest := by
  have valid := toNat_not_surrogate c
  unfold units
  split
  · -- a character of one code unit is not the first half of a pair
    have lone : ¬ (0xD800 ≤ c.toNat ∧ c.toNat < 0xDC00) := by omega
    cases rest with
    | nil => simp [Text.Encoding.joinUnits, scalar_toNat]
    | cons v rest => simp [Text.Encoding.joinUnits, lone, scalar_toNat]
  · have joined : 0x10000 + (0xD800 + (c.toNat - 0x10000) / 0x400 - 0xD800) * 0x400
        + (0xDC00 + (c.toNat - 0x10000) % 0x400 - 0xDC00) = c.toNat := by omega
    have high : 0xD800 ≤ 0xD800 + (c.toNat - 0x10000) / 0x400 ∧
        0xD800 + (c.toNat - 0x10000) / 0x400 < 0xDC00 := by omega
    have low : 0xDC00 ≤ 0xDC00 + (c.toNat - 0x10000) % 0x400 ∧
        0xDC00 + (c.toNat - 0x10000) % 0x400 < 0xE000 := by omega
    simp only [List.cons_append, List.nil_append, Text.Encoding.joinUnits, high, low, decide_true,
      Bool.and_true, if_true, joined, Char.ofNat_toNat]

theorem joinUnits_flatMap_units (text : List Char) :
    Text.Encoding.joinUnits (text.flatMap units) = text := by
  induction text with
  | nil => rfl
  | cons c rest ih => rw [List.flatMap_cons, joinUnits_units, ih]

section Units

variable {start : Nat} {rest after : List Char} {us : List Nat}

theorem readUnits_short {e c : Char} (he : simpleEscape? e = some c)
    (h : readUnits start rest = .ok (us, after)) :
    readUnits start ('\\' :: e :: rest) = .ok (c.toNat :: us, after) := by
  have hu : e ≠ 'u' := by
    rintro rfl
    cases he
  simp [readUnits, he, hu, h, bind, Except.bind, pure, Except.pure]

theorem readUnits_plain {c : Char} (hq : c ≠ '"') (hb : c ≠ '\\') (hc : ¬ c < ' ')
    (h : readUnits start rest = .ok (us, after)) :
    readUnits start (c :: rest) = .ok (c.toNat :: us, after) := by
  simp [readUnits, hb, hc, h, bind, Except.bind, pure, Except.pure]

theorem readUnits_escapeUnit {n : Nat} (hn : n < 0x10000)
    (h : readUnits start rest = .ok (us, after)) :
    readUnits start (escapeUnit n ++ rest) = .ok (n :: us, after) := by
  have hr : Text.Hex.read? (Text.Hex.write 4 n) = some n := by
    have hm : n % 16 ^ 4 = n := Nat.mod_eq_of_lt hn
    rw [Text.Hex.read?_write, hm]
  have hl := Text.Hex.length_write 4 n
  unfold escapeUnit
  match hw : Text.Hex.write 4 n, hl with
  | [a, b, c, d], _ =>
    rw [hw] at hr
    -- the text does not end after the digits, since what follows them is read
    cases rest with
    | nil => cases h
    | cons e rest =>
      simp only [List.cons_append, List.nil_append, readUnits, hr, h]
      rfl

/-- A character that is written is read back as its code units. -/
theorem readUnits_escapeChar (c : Char) (h : readUnits start rest = .ok (us, after)) :
    readUnits start (escapeChar c ++ rest) = .ok (units c ++ us, after) := by
  have one (hc : c.toNat < 0x10000) : units c = [c.toNat] := if_pos hc
  have short {e : Char} (he : simpleEscape? e = some c) (hc : c.toNat < 0x10000) :
      readUnits start ('\\' :: e :: rest) = .ok (units c ++ us, after) := by
    rw [readUnits_short he h, one hc]
    rfl
  unfold escapeChar
  -- the short escapes first, then the character itself, one code unit and two
  split_ifs with hq hb hn hr ht hs hf hp hw
  · exact short (by rw [hq]; rfl) (by rw [hq]; decide)
  · exact short (by rw [hb]; rfl) (by rw [hb]; decide)
  · exact short (by rw [hn]; rfl) (by rw [hn]; decide)
  · exact short (by rw [hr]; rfl) (by rw [hr]; decide)
  · exact short (by rw [ht]; rfl) (by rw [ht]; decide)
  · exact short (by rw [hs]; rfl) (by rw [hs]; decide)
  · exact short (by rw [hf]; rfl) (by rw [hf]; decide)
  · have hc : c.toNat < 0x10000 := Nat.lt_of_le_of_lt hp.2 (by decide)
    rw [one hc]
    exact readUnits_plain hq hb (fun hl => absurd hp.1 (Nat.not_le.mpr hl)) h
  · rw [one hw]
    exact readUnits_escapeUnit hw h
  · have valid := toNat_not_surrogate c
    rw [units, if_neg hw, List.append_assoc]
    exact readUnits_escapeUnit (by omega) (readUnits_escapeUnit (by omega) h)

theorem readUnits_flatMap_escapeChar (start : Nat) (text after : List Char) :
    readUnits start (text.flatMap escapeChar ++ '"' :: after) =
      .ok (text.flatMap units, after) := by
  induction text with
  | nil => rfl
  | cons c rest ih =>
    rw [List.flatMap_cons, List.flatMap_cons, List.append_assoc]
    exact readUnits_escapeChar c ih

end Units

/-- A text in quotes is read back up to its closing quote, whatever follows. -/
theorem readText_quote (s : String) (after : List Char) :
    readText (s.toList.flatMap escapeChar ++ '"' :: after) = .ok (s, after) := by
  unfold readText
  rw [readUnits_flatMap_escapeChar]
  change Except.ok (String.ofList (Text.Encoding.joinUnits (s.toList.flatMap units)), after) = _
  rw [joinUnits_flatMap_units, String.ofList_toList]

end TeamAccess.Json
