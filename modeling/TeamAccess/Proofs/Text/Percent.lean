import TeamAccess.Proofs.Text.Utf8
import TeamAccess.Text.Percent

/-! # Reading back percent encoding

Every text is read back from its percent-encoded form. A slash is part of no encoded byte and of no
character but itself, so that the texts between slashes are read one by one.
-/

namespace TeamAccess.Text.Percent

variable {safe text : List Char} {a b c : Char} {n : Nat}

theorem toBytes_sign (a b : Char) (rest : List Char) :
    toBytes ('%' :: a :: b :: rest) =
      match Hex.read? [a, b] with
      | some n => UInt8.ofNat n :: toBytes rest
      | none => String.utf8EncodeChar '%' ++ toBytes (a :: b :: rest) :=
  rfl

theorem toBytes_of_digits (h : Hex.read? [a, b] = some n) (rest : List Char) :
    toBytes ('%' :: a :: b :: rest) = UInt8.ofNat n :: toBytes rest := by
  rw [toBytes_sign, h]

theorem toBytes_of_no_digits (h : Hex.read? [a, b] = none) (rest : List Char) :
    toBytes ('%' :: a :: b :: rest) = String.utf8EncodeChar '%' ++ toBytes (a :: b :: rest) := by
  rw [toBytes_sign, h]

theorem toBytes_cons (hc : c ≠ '%') (rest : List Char) :
    toBytes (c :: rest) = String.utf8EncodeChar c ++ toBytes rest := by
  rw [toBytes]
  rintro a b rest' rfl
  exact absurd rfl hc

theorem toBytes_ne_nil (h : text ≠ []) : toBytes text ≠ [] := by
  have one (c : Char) (more : List UInt8) : String.utf8EncodeChar c ++ more ≠ [] := by
    obtain ⟨b, bs, hb, -⟩ := Utf8.look_utf8EncodeChar c
    simp [hb]
  fun_cases toBytes text with
  | case1 => exact List.cons_ne_nil _ _
  | case2 => exact one '%' _
  | case3 c => exact one c _
  | case4 => exact absurd rfl h

theorem decode_ne_nil (h : text ≠ []) : decode text ≠ [] :=
  Utf8.decodeLossy_ne_nil (toBytes_ne_nil h)

section Slash

theorem read?_slash_left (c : Char) : Hex.read? ['/', c] = none := rfl

theorem read?_slash_right (c : Char) : Hex.read? [c, '/'] = none := by
  simp only [Hex.read?, Hex.readFrom]
  cases Hex.digit? c <;> rfl

theorem toBytes_slash (a b : List Char) :
    toBytes (a ++ '/' :: b) = toBytes a ++ 47 :: toBytes b := by
  have slash : toBytes ('/' :: b) = 47 :: toBytes b := toBytes_cons (by decide) b
  induction a using toBytes.induct with
  | case1 x y rest n hn ih =>
    simp only [List.cons_append]
    rw [toBytes_of_digits hn, toBytes_of_digits hn, ih, List.cons_append]
  | case2 x y rest hn ih =>
    simp only [List.cons_append] at ih ⊢
    rw [toBytes_of_no_digits hn, toBytes_of_no_digits hn, ih, List.append_assoc]
  | case3 c rest hc ih =>
    by_cases hp : c = '%'
    · subst hp
      -- too little follows the sign to make up a byte, and a slash does not help
      rcases rest with _ | ⟨x, _ | ⟨y, rest⟩⟩
      · cases b with
        | nil => rfl
        | cons y b =>
          change toBytes ('%' :: '/' :: y :: b) = _
          rw [toBytes_of_no_digits (read?_slash_left y), slash]
          rfl
      · simp only [List.cons_append, List.nil_append] at ih ⊢
        rw [toBytes_of_no_digits (read?_slash_right x), ih]
        rfl
      · exact absurd rfl (hc x y rest rfl)
    · rw [List.cons_append, toBytes_cons hp, toBytes_cons hp, ih, List.append_assoc]
  | case4 => exact slash

/-- The texts before and after a slash are read by themselves. -/
theorem decode_slash (a b : List Char) : decode (a ++ '/' :: b) = decode a ++ '/' :: decode b := by
  rw [decode, toBytes_slash, Utf8.decodeLossy_break (by decide)]
  rfl

end Slash

section Encode

theorem digit?_toUpper : ∀ n, n < 16 → Hex.digit? (Nat.digitChar n).toUpper = some n := by decide

theorem isUnreserved_toUpper : ∀ n, n < 16 → isUnreserved (Nat.digitChar n).toUpper = true := by
  decide

theorem encodeByte_eq (b : UInt8) : encodeByte b =
    ['%', (Nat.digitChar (b.toNat / 16 % 16)).toUpper, (Nat.digitChar (b.toNat % 16)).toUpper] :=
  rfl

theorem toBytes_encodeByte (b : UInt8) (rest : List Char) :
    toBytes (encodeByte b ++ rest) = b :: toBytes rest := by
  have high := digit?_toUpper (b.toNat / 16 % 16) (by omega)
  have low := digit?_toUpper (b.toNat % 16) (by omega)
  have back : Hex.read? [(Nat.digitChar (b.toNat / 16 % 16)).toUpper,
      (Nat.digitChar (b.toNat % 16)).toUpper] = some b.toNat := by
    have hb := b.toNat_lt
    simp only [Hex.read?, Hex.readFrom, high, low, Option.some.injEq]
    omega
  rw [encodeByte_eq]
  exact (toBytes_of_digits back rest).trans (by rw [UInt8.ofNat_toNat])

theorem toBytes_encode (hs : '%' ∉ safe) (text : List Char) :
    toBytes (encode safe text) = Utf8.encode text := by
  have coded (bytes : List UInt8) (rest : List Char) :
      toBytes (bytes.flatMap encodeByte ++ rest) = bytes ++ toBytes rest := by
    induction bytes with
    | nil => rfl
    | cons b bytes ih =>
      rw [List.flatMap_cons, List.append_assoc, toBytes_encodeByte, ih, List.cons_append]
  induction text with
  | nil => rfl
  | cons c text ih =>
    change toBytes (encodeChar safe c ++ encode safe text) =
      String.utf8EncodeChar c ++ Utf8.encode text
    rw [encodeChar]
    split
    · rename_i hc
      have hp : c ≠ '%' := by
        rintro rfl
        simp [isUnreserved, hs] at hc
      rw [List.singleton_append, toBytes_cons hp, ih]
    · rw [coded, ih]

/-- A text is read back from its percent-encoded form. -/
theorem decode_encode (hs : '%' ∉ safe) (text : List Char) : decode (encode safe text) = text := by
  rw [decode, toBytes_encode hs, Utf8.decodeLossy_encode]

/-- What is neither unreserved nor safe does not occur in an encoded text, the signs of its bytes
apart. -/
theorem not_mem_encode (hu : isUnreserved c = false) (hs : c ∉ safe) (hp : c ≠ '%')
    (text : List Char) : c ∉ encode safe text := by
  have digit {n : Nat} (hn : n < 16) : c ≠ (Nat.digitChar n).toUpper := by
    rintro rfl
    rw [isUnreserved_toUpper n hn] at hu
    cases hu
  intro hm
  obtain ⟨x, -, hx⟩ := List.mem_flatMap.mp hm
  rw [encodeChar] at hx
  split at hx
  · rename_i plain
    obtain rfl := List.mem_singleton.mp hx
    simp [hu, hs] at plain
  · obtain ⟨b, -, hb⟩ := List.mem_flatMap.mp hx
    rw [encodeByte_eq, List.mem_cons, List.mem_cons, List.mem_singleton] at hb
    rcases hb with he | he | he
    · exact hp he
    · exact digit (by omega) he
    · exact digit (by omega) he

end Encode

end TeamAccess.Text.Percent
