import TeamAccess.Text.Utf8

/-! # Reading UTF-8 back

Every character is read back from its bytes, whatever follows. A byte below 128 spells a character
by itself, so that what stands before it is read as if nothing followed.
-/

namespace TeamAccess.Text.Utf8

variable {b c d e : UInt8} {bytes more rest : List UInt8}

theorem isContinuation_iff : isContinuation b = true ↔ 128 ≤ b.toNat ∧ b.toNat ≤ 191 := by
  simp [isContinuation, UInt8.le_iff_toNat_le]

theorem isSecond_iff : isSecond b c = true ↔
    (128 ≤ c.toNat ∧ c.toNat ≤ 191) ∧ (b.toNat = 224 → 160 ≤ c.toNat) ∧
      (b.toNat = 237 → c.toNat ≤ 159) ∧ (b.toNat = 240 → 144 ≤ c.toNat) ∧
      (b.toNat = 244 → c.toNat ≤ 143) := by
  have value (n : UInt8) : b = n ↔ b.toNat = n.toNat := UInt8.toNat_inj.symm
  simp only [isSecond, Bool.and_eq_true, isContinuation_iff, Bool.not_eq_true',
    Bool.and_eq_false_iff, beq_eq_false_iff_ne, ne_eq, value, decide_eq_false_iff_not,
    UInt8.lt_iff_toNat_lt]
  simp only [UInt8.reduceToNat]
  omega

section Look

theorem look_one (hb : b.toNat < 128) (rest : List UInt8) :
    look b rest = ⟨.ok (Char.ofNat b.toNat), 1⟩ :=
  if_pos (UInt8.lt_iff_toNat_lt.mpr hb)

theorem look_two (hb : 194 ≤ b.toNat ∧ b.toNat < 224) (hc : isContinuation c = true)
    (rest : List UInt8) :
    look b (c :: rest) = ⟨.ok (Char.ofNat (b.toNat % 32 * 64 + low c)), 2⟩ := by
  have h₁ : ¬ b.toNat < 128 := by omega
  have h₂ : ¬ (b.toNat < 194 ∨ 244 < b.toNat) := by omega
  simp [look, UInt8.lt_iff_toNat_lt, h₁, h₂, hb.2, hc]

theorem look_three (hb : 224 ≤ b.toNat ∧ b.toNat < 240) (hc : isSecond b c = true)
    (hd : isContinuation d = true) (rest : List UInt8) :
    look b (c :: d :: rest) =
      ⟨.ok (Char.ofNat (b.toNat % 16 * 4096 + low c * 64 + low d)), 3⟩ := by
  have h₁ : ¬ b.toNat < 128 := by omega
  have h₂ : ¬ (b.toNat < 194 ∨ 244 < b.toNat) := by omega
  have h₃ : ¬ b.toNat < 224 := by omega
  simp [look, UInt8.lt_iff_toNat_lt, h₁, h₂, h₃, hb.2, hc, hd]

theorem look_four (hb : 240 ≤ b.toNat ∧ b.toNat ≤ 244) (hc : isSecond b c = true)
    (hd : isContinuation d = true) (he : isContinuation e = true) (rest : List UInt8) :
    look b (c :: d :: e :: rest) =
      ⟨.ok (Char.ofNat (b.toNat % 8 * 262144 + low c * 4096 + low d * 64 + low e)), 4⟩ := by
  have h₁ : ¬ b.toNat < 128 := by omega
  have h₂ : ¬ (b.toNat < 194 ∨ 244 < b.toNat) := by omega
  have h₃ : ¬ b.toNat < 224 := by omega
  have h₄ : ¬ b.toNat < 240 := by omega
  simp [look, UInt8.lt_iff_toNat_lt, h₁, h₂, h₃, h₄, hc, hd, he]

/-- The bytes of a character spell it and nothing more. -/
theorem look_utf8EncodeChar (ch : Char) :
    ∃ b more, String.utf8EncodeChar ch = b :: more ∧
      ∀ rest, look b (more ++ rest) = ⟨.ok ch, more.length + 1⟩ := by
  have valid : ch.val.toNat < 55296 ∨ 57343 < ch.val.toNat ∧ ch.val.toNat < 1114112 := ch.valid
  have back (n : Nat) (h : n = ch.val.toNat) : Char.ofNat n = ch := h ▸ Char.ofNat_toNat ch
  unfold String.utf8EncodeChar
  generalize ch.val.toNat = v at valid back
  have value {n : Nat} (h : n < 256) : (UInt8.ofNat n).toNat = n := by
    rw [UInt8.toNat_ofNat', Nat.mod_eq_of_lt h]
  dsimp only
  split
  · refine ⟨_, _, rfl, fun rest => ?_⟩
    rw [List.nil_append, look_one (by rw [value] <;> omega), back _ (value (by omega))]
    rfl
  · split
    · refine ⟨_, _, rfl, fun rest => ?_⟩
      rw [List.cons_append, look_two (by rw [value] <;> omega)
        (isContinuation_iff.mpr (by rw [value] <;> omega)), low, value, value, back]
      · rfl
      all_goals omega
    · split
      · refine ⟨_, _, rfl, fun rest => ?_⟩
        rw [List.cons_append, List.cons_append, look_three (by rw [value] <;> omega)
          (isSecond_iff.mpr (by rw [value, value] <;> omega))
          (isContinuation_iff.mpr (by rw [value] <;> omega)), low, low, value, value, value, back]
        · rfl
        all_goals omega
      · refine ⟨_, _, rfl, fun rest => ?_⟩
        rw [List.cons_append, List.cons_append, List.cons_append,
          look_four (by rw [value] <;> omega) (isSecond_iff.mpr (by rw [value, value] <;> omega))
            (isContinuation_iff.mpr (by rw [value] <;> omega))
            (isContinuation_iff.mpr (by rw [value] <;> omega)), low, low, low, value, value, value,
          value, back]
        · rfl
        all_goals omega

end Look

theorem pieces_length (bytes rest : List UInt8) :
    pieces bytes.length (bytes ++ rest) = pieces 0 rest := by
  induction bytes with
  | nil => rfl
  | cons b bytes ih => exact ih

theorem decodeLossy_encode_append (text : List Char) (rest : List UInt8) :
    decodeLossy (encode text ++ rest) = text ++ decodeLossy rest := by
  induction text with
  | nil => rfl
  | cons c text ih =>
    obtain ⟨b, more, hc, hl⟩ := look_utf8EncodeChar c
    have whole : encode (c :: text) ++ rest = b :: (more ++ (encode text ++ rest)) := by
      simp [encode, hc]
    have cut : pieces 0 (b :: (more ++ (encode text ++ rest))) =
        ⟨.ok c, more.length + 1⟩ :: pieces 0 (encode text ++ rest) := by
      rw [pieces, hl, Nat.add_sub_cancel, pieces_length]
    rw [whole, decodeLossy, cut, List.map_cons, List.cons_append, ← ih]
    rfl

theorem decodeLossy_encode (text : List Char) : decodeLossy (encode text) = text := by
  have h := decodeLossy_encode_append text []
  rwa [List.append_nil, show decodeLossy [] = [] from rfl, List.append_nil] at h

theorem decodeLossy_ne_nil (h : bytes ≠ []) : decodeLossy bytes ≠ [] := by
  obtain ⟨b, rest, rfl⟩ := List.exists_cons_of_ne_nil h
  exact List.cons_ne_nil _ _

theorem look_size_le (first : UInt8) (bytes : List UInt8) :
    (look first bytes).size ≤ bytes.length + 1 := by
  unfold look
  repeat' split
  all_goals simp

section Break

/-- What a piece is read as. -/
def reading (p : Piece) : Char :=
  match p.content with
  | .ok c => c
  | .error _ => '\uFFFD'

variable (hb : b.toNat < 128)

include hb

/-- A byte below 128 leaves the piece before it as it is, whole or not. -/
theorem look_break (first : UInt8) (bytes rest : List UInt8) :
    (look first (bytes ++ b :: rest)).size = (look first bytes).size ∧
      reading (look first (bytes ++ b :: rest)) = reading (look first bytes) := by
  have hc : isContinuation b = false := by
    rw [← Bool.not_eq_true, isContinuation_iff]
    omega
  have hs : isSecond first b = false := by
    rw [← Bool.not_eq_true, isSecond_iff]
    omega
  -- what decides about the piece is among the bytes, or the byte after them continues nothing
  rcases bytes with _ | ⟨c, _ | ⟨d, _ | ⟨e, bytes⟩⟩⟩
  all_goals
    simp only [look, List.nil_append, List.cons_append, hc]
    repeat' split
    all_goals first | exact ⟨rfl, rfl⟩ | simp_all

theorem pieces_break (bytes rest : List UInt8) : ∀ skip ≤ bytes.length,
    (pieces skip (bytes ++ b :: rest)).map reading =
      (pieces skip bytes).map reading ++ Char.ofNat b.toNat :: (pieces 0 rest).map reading := by
  induction bytes with
  | nil =>
    intro skip hk
    obtain rfl := Nat.le_zero.mp hk
    change List.map reading (look b rest :: pieces ((look b rest).size - 1) rest) = _
    rw [look_one hb]
    rfl
  | cons first bytes ih =>
    intro skip hk
    cases skip with
    | zero =>
      obtain ⟨size, read⟩ := look_break hb first bytes rest
      have bound := look_size_le first bytes
      rw [List.cons_append, pieces, pieces, size, List.map_cons, read, ih _ (by omega)]
      rfl
    | succ skip => exact ih skip (Nat.le_of_succ_le_succ hk)

/-- A byte below 128 is read by itself. -/
theorem decodeLossy_break (bytes rest : List UInt8) :
    decodeLossy (bytes ++ b :: rest) =
      decodeLossy bytes ++ Char.ofNat b.toNat :: decodeLossy rest :=
  pieces_break hb bytes rest 0 (Nat.zero_le _)

end Break

end TeamAccess.Text.Utf8
