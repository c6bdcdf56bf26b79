import Mathlib.Data.List.TakeWhile
import TeamAccess.Text.Base64Url

/-! # Reading back URL-safe base64

Bytes are written as numbers of six bits, and these as digits; each of the two steps is undone by
reading. Nothing that is written holds a character that is not a digit.
-/

namespace TeamAccess.Text.Base64Url

/-- The values of the digits that bytes are written in. -/
def sextets : List UInt8 → List Nat
  | [] => []
  | [a] => [a.toNat / 4, a.toNat % 4 * 16]
  | [a, b] => [a.toNat / 4, a.toNat % 4 * 16 + b.toNat / 16, b.toNat % 16 * 4]
  | a :: b :: c :: rest =>
    a.toNat / 4 :: (a.toNat % 4 * 16 + b.toNat / 16) :: (b.toNat % 16 * 4 + c.toNat / 64)
      :: c.toNat % 64 :: sextets rest

theorem encode_eq (bytes : List UInt8) : encode bytes = (sextets bytes).map digitChar := by
  fun_induction encode bytes with
  | case1 => rfl
  | case2 a => rfl
  | case3 a b => rfl
  | case4 a b c rest ih => simp [sextets, ih]

theorem lt_of_mem_sextets {bytes : List UInt8} : ∀ n ∈ sextets bytes, n < 64 := by
  fun_induction sextets bytes with
  | case1 => simp
  | case2 a =>
    have ha := a.toNat_lt
    simp only [List.mem_cons, List.not_mem_nil, or_false]
    omega
  | case3 a b =>
    have ha := a.toNat_lt
    have hb := b.toNat_lt
    simp only [List.mem_cons, List.not_mem_nil, or_false]
    omega
  | case4 a b c rest ih =>
    have ha := a.toNat_lt
    have hb := b.toNat_lt
    have hc := c.toNat_lt
    intro n hn
    simp only [List.mem_cons] at hn
    rcases hn with rfl | rfl | rfl | rfl | hn
    · omega
    · omega
    · omega
    · omega
    · exact ih n hn

theorem ofNat_eq {a : UInt8} {n : Nat} (h : n = a.toNat) : UInt8.ofNat n = a := by
  rw [h, UInt8.ofNat_toNat]

theorem bytes?_sextets (bytes : List UInt8) : bytes? (sextets bytes) = some bytes := by
  fun_induction sextets bytes with
  | case1 => rfl
  | case2 a =>
    have h₁ : UInt8.ofNat (a.toNat / 4 * 4 + a.toNat % 4 * 16 / 16) = a := ofNat_eq (by omega)
    have h₂ : a.toNat % 4 * 16 % 16 = 0 := by omega
    simp only [bytes?, h₁, h₂, if_true]
  | case3 a b =>
    have hb := b.toNat_lt
    have h₁ : UInt8.ofNat (a.toNat / 4 * 4 + (a.toNat % 4 * 16 + b.toNat / 16) / 16) = a :=
      ofNat_eq (by omega)
    have h₂ : UInt8.ofNat ((a.toNat % 4 * 16 + b.toNat / 16) % 16 * 16
        + b.toNat % 16 * 4 / 4) = b := ofNat_eq (by omega)
    have h₃ : b.toNat % 16 * 4 % 4 = 0 := by omega
    simp only [bytes?, h₁, h₂, h₃, if_true]
  | case4 a b c rest ih =>
    have hb := b.toNat_lt
    have hc := c.toNat_lt
    have h₁ : UInt8.ofNat (a.toNat / 4 * 4 + (a.toNat % 4 * 16 + b.toNat / 16) / 16) = a :=
      ofNat_eq (by omega)
    have h₂ : UInt8.ofNat ((a.toNat % 4 * 16 + b.toNat / 16) % 16 * 16
        + (b.toNat % 16 * 4 + c.toNat / 64) / 4) = b := ofNat_eq (by omega)
    have h₃ : UInt8.ofNat ((b.toNat % 16 * 4 + c.toNat / 64) % 4 * 64 + c.toNat % 64) = c :=
      ofNat_eq (by omega)
    simp only [bytes?, ih, Option.map_some, h₁, h₂, h₃]

theorem value?_digitChar : ∀ n, n < 64 → value? (digitChar n) = some n := by
  decide +kernel

theorem not_mem_encode {c : Char} (hc : value? c = none) (bytes : List UInt8) :
    c ∉ encode bytes := by
  rw [encode_eq, List.mem_map]
  rintro ⟨n, hn, rfl⟩
  rw [value?_digitChar n (lt_of_mem_sextets n hn)] at hc
  cases hc

theorem mapM_value?_encode (bytes : List UInt8) :
    (encode bytes).mapM value? = some (sextets bytes) := by
  have h : ∀ ns : List Nat, (∀ n ∈ ns, n < 64) → (ns.map digitChar).mapM value? = some ns := by
    intro ns
    induction ns with
    | nil => simp
    | cons n ns ih =>
      intro hn
      obtain ⟨h₁, h₂⟩ := List.forall_mem_cons.mp hn
      simp [value?_digitChar n h₁, ih h₂]
  rw [encode_eq]
  exact h _ lt_of_mem_sextets

/-- Bytes that are written are read back. -/
theorem decode?_encode (bytes : List UInt8) : decode? (encode bytes) = some bytes := by
  have digit : ∀ c ∈ encode bytes, (c != '=') = true := by
    intro c hc
    rw [bne_iff_ne]
    rintro rfl
    exact not_mem_encode (by decide) bytes hc
  have body : (encode bytes).takeWhile (· != '=') = encode bytes :=
    List.takeWhile_eq_self_iff.mpr digit
  have pads : (encode bytes).dropWhile (· != '=') = [] := List.dropWhile_eq_nil_iff.mpr digit
  unfold decode?
  dsimp only
  rw [body, pads, if_pos (.inl rfl), mapM_value?_encode]
  exact bytes?_sextets bytes

end TeamAccess.Text.Base64Url
