import TeamAccess.Text.Encoding

/-! # Reading back ASCII

The bytes of a text in ASCII other than `U+0000` are its code points. They suggest no encoding but
UTF-8, in which each of them is a character of its own.
-/

namespace TeamAccess.Text

/-- Characters that are written in one byte other than zero. -/
def IsAscii (c : Char) : Prop := 0 < c.toNat ∧ c.toNat < 128

namespace Utf8

theorem utf8EncodeChar_ascii {c : Char} (h : IsAscii c) :
    String.utf8EncodeChar c = [UInt8.ofNat c.toNat] := by
  have hc : c.toNat ≤ 0x7F := Nat.le_of_lt_succ h.2
  simp [String.utf8EncodeChar, hc]

theorem encode_cons_ascii {c : Char} (h : IsAscii c) (text : List Char) :
    encode (c :: text) = UInt8.ofNat c.toNat :: encode text := by
  simp [encode, utf8EncodeChar_ascii h]

theorem toNat_ofNat_ascii {c : Char} (h : IsAscii c) : (UInt8.ofNat c.toNat).toNat = c.toNat := by
  rw [UInt8.toNat_ofNat']
  exact Nat.mod_eq_of_lt (Nat.lt_trans h.2 (by decide))

theorem look_ascii {c : Char} (h : IsAscii c) (rest : List UInt8) :
    look (UInt8.ofNat c.toNat) rest = ⟨.ok c, 1⟩ := by
  have hb : UInt8.ofNat c.toNat < 0x80 := by
    rw [UInt8.lt_iff_toNat_lt, toNat_ofNat_ascii h]
    exact h.2
  unfold look
  rw [if_pos hb, toNat_ofNat_ascii h, Char.ofNat_toNat]

theorem pieces_encode_ascii {text : List Char} (h : ∀ c ∈ text, IsAscii c) :
    pieces 0 (encode text) = text.map fun c => ⟨.ok c, 1⟩ := by
  induction text with
  | nil => rfl
  | cons c rest ih =>
    obtain ⟨hc, hr⟩ := List.forall_mem_cons.mp h
    rw [encode_cons_ascii hc, pieces, look_ascii hc, List.map_cons, ← ih hr]
    rfl

end Utf8

namespace Encoding

theorem decode8_pieces (bytes : List UInt8) (text : List Char) (position : Nat) :
    decode8 bytes position (text.map fun c => ⟨.ok c, 1⟩) = .ok text := by
  induction text generalizing position with
  | nil => rfl
  | cons c rest ih =>
    rw [List.map_cons, decode8, ih]
    rfl

section Detect

variable {bytes : List UInt8} (h : ∀ b ∈ bytes, 0 < b.toNat ∧ b.toNat < 128)

include h

theorem ofZeros_ascii : ofZeros bytes = .utf8 := by
  have nonzero : ∀ b ∈ bytes, (b == 0) = false := by
    rintro b hb
    rw [beq_eq_false_iff_ne]
    rintro rfl
    exact absurd (h _ hb).1 (by decide)
  unfold ofZeros
  split
  · simp [nonzero _ (List.mem_cons_self ..),
      nonzero _ (List.mem_cons_of_mem _ (List.mem_cons_self ..))]
  · simp [nonzero _ (List.mem_cons_self ..),
      nonzero _ (List.mem_cons_of_mem _ (List.mem_cons_self ..))]
  · rfl

/-- No byte order mark and no zero byte is found among the bytes of ASCII characters. -/
theorem detect_ascii : detect bytes = (.utf8, bytes) := by
  have outside : ∀ m ∈ marks, ∃ b ∈ m.1, ¬ b.toNat < 128 := by decide
  have unmarked : marks.find? (·.1.isPrefixOf bytes) = none := by
    refine List.find?_eq_none.mpr fun m hm hp => ?_
    obtain ⟨b, hb, hn⟩ := outside m hm
    exact hn (h b ((List.isPrefixOf_iff_prefix.mp hp).subset hb)).2
  rw [detect, unmarked, ofZeros_ascii h]

end Detect

theorem mem_encode_ascii {text : List Char} (h : ∀ c ∈ text, IsAscii c) :
    ∀ b ∈ Utf8.encode text, 0 < b.toNat ∧ b.toNat < 128 := by
  intro b hb
  obtain ⟨c, hc, hb⟩ := List.mem_flatMap.mp hb
  rw [Utf8.utf8EncodeChar_ascii (h c hc), List.mem_singleton] at hb
  rw [hb, Utf8.toNat_ofNat_ascii (h c hc)]
  exact h c hc

/-- A text in ASCII is read back from its bytes. -/
theorem decode_encode_ascii {text : List Char} (h : ∀ c ∈ text, IsAscii c) :
    decode (Utf8.encode text) = .ok text := by
  rw [decode, detect_ascii (mem_encode_ascii h)]
  dsimp only
  rw [Utf8.pieces_encode_ascii h]
  exact decode8_pieces _ _ _

end Encoding

end TeamAccess.Text
