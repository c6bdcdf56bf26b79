import TeamAccess.Proofs.Json.Number
import TeamAccess.Proofs.Text.Encoding

/-! # Which characters a text of JSON holds

Whatever a value holds, its text is made of printable ASCII characters. It begins with a character
that is neither a blank nor a closing bracket.
-/

namespace TeamAccess.Json

/-- The ASCII characters that are neither control characters nor `U+007F`. -/
def Printable (c : Char) : Prop := ' '.toNat ≤ c.toNat ∧ c.toNat ≤ '~'.toNat

instance (c : Char) : Decidable (Printable c) := inferInstanceAs (Decidable (_ ∧ _))

variable {c : Char} {layout : Layout}

theorem Printable.isAscii (h : Printable c) : Text.IsAscii c := by
  have hl : 32 ≤ c.toNat := h.1
  have hu : c.toNat ≤ 126 := h.2
  constructor <;> omega

theorem printable_of_all {text : List Char} (h : (text.all fun c => decide (Printable c)) = true) :
    ∀ c ∈ text, Printable c := by
  simpa using h

theorem printable_digitChar : ∀ n, n < 16 → Printable (Nat.digitChar n) := by decide

theorem printable_toDigits {n : Nat} : ∀ c ∈ Nat.toDigits 10 n, Printable c := by
  intro c hc
  have hd := isDigit_of_mem_toDigits hc
  simp only [isDigit, Bool.and_eq_true, decide_eq_true_eq] at hd
  exact ⟨Char.le_trans (by decide) hd.1, Char.le_trans hd.2 (by decide)⟩

theorem printable_write (width n : Nat) : ∀ c ∈ Text.Hex.write width n, Printable c := by
  induction width generalizing n with
  | zero => nofun
  | succ k ih =>
    refine List.forall_mem_append.mpr ⟨ih _, List.forall_mem_singleton.mpr ?_⟩
    exact printable_digitChar _ (Nat.mod_lt n (by decide))

theorem printable_escapeUnit (n : Nat) : ∀ c ∈ escapeUnit n, Printable c :=
  List.forall_mem_cons.mpr ⟨by decide, List.forall_mem_cons.mpr ⟨by decide, printable_write 4 n⟩⟩

theorem printable_escapeChar (d : Char) : ∀ c ∈ escapeChar d, Printable c := by
  unfold escapeChar
  split_ifs with _ _ _ _ _ _ _ hp
  · exact printable_of_all rfl
  · exact printable_of_all rfl
  · exact printable_of_all rfl
  · exact printable_of_all rfl
  · exact printable_of_all rfl
  · exact printable_of_all rfl
  · exact printable_of_all rfl
  · exact List.forall_mem_singleton.mpr hp
  · exact printable_escapeUnit _
  · exact List.forall_mem_append.mpr ⟨printable_escapeUnit _, printable_escapeUnit _⟩

theorem printable_quote (s : String) : ∀ c ∈ quote s, Printable c := by
  refine List.forall_mem_cons.mpr ⟨by decide, List.forall_mem_append.mpr ⟨?_, ?_⟩⟩
  case refine_2 => exact printable_of_all rfl
  intro c hc
  obtain ⟨d, -, hc⟩ := List.mem_flatMap.mp hc
  exact printable_escapeChar d c hc

theorem printable_printInt (n : Int) : ∀ c ∈ printInt n, Printable c := by
  rw [printInt_eq, List.forall_mem_append]
  refine ⟨?_, printable_toDigits⟩
  split <;> exact printable_of_all rfl

theorem printable_printDecimal (d : Decimal) : ∀ c ∈ printDecimal d, Printable c := by
  refine List.forall_mem_append.mpr ⟨List.forall_mem_append.mpr ⟨?_, printable_toDigits⟩,
    List.forall_mem_cons.mpr ⟨by decide, printable_printInt _⟩⟩
  split <;> exact printable_of_all rfl

theorem printable_gap (layout : Layout) : ∀ c ∈ layout.gap, Printable c := by
  cases layout <;> exact printable_of_all rfl

mutual

/-- The text of a value is made of printable ASCII characters. -/
theorem printable_print (layout : Layout) : ∀ j : Json, ∀ c ∈ print layout j, Printable c
  | .null => by rw [print]; exact printable_of_all rfl
  | .bool true => by rw [print]; exact printable_of_all rfl
  | .bool false => by rw [print]; exact printable_of_all rfl
  | .int n => by simpa only [print] using printable_printInt n
  | .decimal d => by simpa only [print] using printable_printDecimal d
  | .notANumber => by rw [print]; exact printable_of_all rfl
  | .infinity true => by rw [print]; exact printable_of_all rfl
  | .infinity false => by rw [print]; exact printable_of_all rfl
  | .str s => by simpa only [print] using printable_quote s
  | .arr items => by
    simp only [print, List.forall_mem_cons, List.forall_mem_append]
    exact ⟨by decide, printable_printItems layout items, by decide, nofun⟩
  | .obj members => by
    simp only [print, List.forall_mem_cons, List.forall_mem_append]
    exact ⟨by decide, printable_printMembers layout members, by decide, nofun⟩

theorem printable_printItems (layout : Layout) :
    ∀ items : List Json, ∀ c ∈ printItems layout items, Printable c
  | [] => by simp [printItems]
  | [item] => by simpa only [printItems] using printable_print layout item
  | item :: next :: rest => by
    simp only [printItems, List.forall_mem_cons, List.forall_mem_append]
    exact ⟨printable_print layout item, by decide, printable_gap layout,
      printable_printItems layout (next :: rest)⟩

theorem printable_printMembers (layout : Layout) :
    ∀ members : List (String × Json), ∀ c ∈ printMembers layout members, Printable c
  | [] => by simp [printMembers]
  | [(name, value)] => by
    simp only [printMembers, List.forall_mem_cons, List.forall_mem_append]
    exact ⟨printable_quote name, by decide, printable_gap layout, printable_print layout value⟩
  | (name, value) :: next :: rest => by
    simp only [printMembers, List.forall_mem_cons, List.forall_mem_append]
    exact ⟨⟨printable_quote name, by decide, printable_gap layout, printable_print layout value⟩,
      by decide, printable_gap layout, printable_printMembers layout (next :: rest)⟩

end

/-- The bytes of the text of a value suggest UTF-8, in which the text is read back. -/
theorem decode_encode_print (layout : Layout) (j : Json) :
    Text.Encoding.decode (Text.Utf8.encode (print layout j)) = .ok (print layout j) :=
  Text.Encoding.decode_encode_ascii fun c hc => (printable_print layout j c hc).isAscii

end TeamAccess.Json
