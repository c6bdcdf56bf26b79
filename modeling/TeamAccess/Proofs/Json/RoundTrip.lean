import TeamAccess.Proofs.Json.Printable
import TeamAccess.Proofs.Json.Quoted
import TeamAccess.Proofs.Outcome

/-! # Reading back what was printed

A value whose integers are not too long and whose objects name no member twice is read back from
its text, and so from the bytes of its text. The reader's bound on the depth grows with the text,
so the text that is left to read bounds it in the induction.
-/

namespace TeamAccess.Json

variable {layout : Layout} {c : Char} {rest after text : List Char} {fuel : Nat}

/-- The values that the reader takes whole: integers have at most the digits that it allows, and
the members of an object have different names. -/
inductive Readable : Json → Prop where
  | null : Readable .null
  | bool (value : Bool) : Readable (.bool value)
  | int {n : Int} : (Nat.toDigits 10 n.natAbs).length ≤ maxDigits → Readable (.int n)
  | decimal (d : Decimal) : Readable (.decimal d)
  | notANumber : Readable .notANumber
  | infinity (negative : Bool) : Readable (.infinity negative)
  | str (s : String) : Readable (.str s)
  | arr {items : List Json} : (∀ item ∈ items, Readable item) → Readable (.arr items)
  | obj {members : List (String × Json)} : (members.map (·.1)).Nodup →
      (∀ m ∈ members, Readable m.2) → Readable (.obj members)

section Members

variable {name : String} {value : Json} {known members : List (String × Json)}

theorem setMember_of_not_mem (h : name ∉ known.map (·.1)) :
    setMember name value known = known ++ [(name, value)] := by
  induction known with
  | nil => rfl
  | cons m rest ih =>
    rw [List.map_cons, List.mem_cons, not_or] at h
    rw [setMember, if_neg (Ne.symm h.1), ih h.2, List.cons_append]

theorem foldl_setMember (h : ((known ++ members).map (·.1)).Nodup) :
    members.foldl (fun acc m => setMember m.1 m.2 acc) known = known ++ members := by
  induction members generalizing known with
  | nil => simp
  | cons m rest ih =>
    have hn : m.1 ∉ known.map (·.1) := by
      rw [List.map_append, List.nodup_append] at h
      exact fun hm => h.2.2 _ hm _ (by simp) rfl
    rw [List.foldl_cons, setMember_of_not_mem hn, ih (by simpa using h)]
    simp

/-- Members with different names are kept as they are. -/
theorem unique_of_nodup (h : (members.map (·.1)).Nodup) : unique members = members :=
  foldl_setMember h

end Members

section Blanks

theorem skipBlanks_cons (h : ' ' < c) (rest : List Char) : skipBlanks (c :: rest) = c :: rest := by
  have hs : c ≠ ' ' := by rintro rfl; exact absurd h (by decide)
  have ht : c ≠ '\t' := by rintro rfl; exact absurd h (by decide)
  have hn : c ≠ '\n' := by rintro rfl; exact absurd h (by decide)
  have hr : c ≠ '\r' := by rintro rfl; exact absurd h (by decide)
  simp [skipBlanks, hs, ht, hn, hr]

theorem skipBlanks_gap (layout : Layout) (text : List Char) :
    skipBlanks (layout.gap ++ text) = skipBlanks text := by
  cases layout <;> rfl

/-- The text of a value begins neither with a blank nor with a closing bracket. -/
theorem print_cons (layout : Layout) (j : Json) :
    ∃ c rest, print layout j = c :: rest ∧ ' ' < c ∧ c ≠ ']' := by
  cases j with
  | null => exact ⟨_, _, rfl, by decide, by decide⟩
  | bool value => cases value <;> exact ⟨_, _, rfl, by decide, by decide⟩
  | int n =>
    obtain ⟨c, rest, h, hc⟩ := printInt_cons n
    exact ⟨c, rest, h, hc.blank_lt, hc.ne (by decide) (by decide)⟩
  | decimal d =>
    obtain ⟨c, rest, h, hc⟩ := printDecimal_cons d
    exact ⟨c, rest, h, hc.blank_lt, hc.ne (by decide) (by decide)⟩
  | notANumber => exact ⟨_, _, rfl, by decide, by decide⟩
  | infinity negative => cases negative <;> exact ⟨_, _, rfl, by decide, by decide⟩
  | str s => exact ⟨_, _, rfl, by decide, by decide⟩
  | arr items => exact ⟨_, _, rfl, by decide, by decide⟩
  | obj members => exact ⟨_, _, rfl, by decide, by decide⟩

theorem skipBlanks_print (layout : Layout) (j : Json) (rest : List Char) :
    skipBlanks (print layout j ++ rest) = print layout j ++ rest := by
  obtain ⟨c, cs, h, hc, -⟩ := print_cons layout j
  rw [h]
  exact skipBlanks_cons hc _

theorem printItems_cons (layout : Layout) (item : Json) (items : List Json) :
    ∃ c rest, printItems layout (item :: items) = c :: rest ∧ ' ' < c ∧ c ≠ ']' := by
  obtain ⟨c, rest, h, hc⟩ := print_cons layout item
  cases items with
  | nil => exact ⟨c, rest, h, hc⟩
  | cons next items =>
    exact ⟨c, _, congrArg (· ++ ',' :: (layout.gap ++ printItems layout (next :: items))) h, hc⟩

theorem skipBlanks_printItems (layout : Layout) (item : Json) (items : List Json)
    (rest : List Char) :
    skipBlanks (printItems layout (item :: items) ++ rest) =
      printItems layout (item :: items) ++ rest := by
  obtain ⟨c, cs, h, hc, -⟩ := printItems_cons layout item items
  rw [h]
  exact skipBlanks_cons hc _

theorem printMembers_cons (layout : Layout) (m : String × Json) (members : List (String × Json)) :
    ∃ rest, printMembers layout (m :: members) = '"' :: rest := by
  cases members <;> exact ⟨_, rfl⟩

theorem skipBlanks_printMembers (layout : Layout) (m : String × Json)
    (members : List (String × Json)) (rest : List Char) :
    skipBlanks (printMembers layout (m :: members) ++ rest) =
      printMembers layout (m :: members) ++ rest := by
  obtain ⟨cs, h⟩ := printMembers_cons layout m members
  rw [h]
  exact skipBlanks_cons (by decide) _

end Blanks

section Steps

variable {name : String} {value item : Json} {items : List Json} {members : List (String × Json)}

theorem readValue_scalar (hq : c ≠ '"') (ha : c ≠ '[') (ho : c ≠ '\x7b') :
    readValue (fuel + 1) (c :: rest) = readScalar (c :: rest) := by
  simp [readValue, hq, ha, ho]

theorem readValue_number (hc : StartsNumber c) :
    readValue (fuel + 1) (c :: rest) = readScalar (c :: rest) :=
  readValue_scalar (hc.ne (by decide) (by decide)) (hc.ne (by decide) (by decide))
    (hc.ne (by decide) (by decide))

theorem quote_append (s : String) (rest : List Char) :
    quote s ++ rest = '"' :: (s.toList.flatMap escapeChar ++ '"' :: rest) := by
  rw [quote, List.cons_append, List.append_assoc, List.singleton_append]

theorem readValue_quote (fuel : Nat) (s : String) (rest : List Char) :
    readValue (fuel + 1) (quote s ++ rest) = .ok (.str s, rest) := by
  rw [quote_append]
  exact bind_eq_ok_iff.mpr ⟨_, readText_quote s rest, rfl⟩

theorem readValue_items (hs : skipBlanks text = c :: rest) (hc : c ≠ ']')
    (h : readItems fuel (c :: rest) = .ok (items, after)) :
    readValue (fuel + 1) ('[' :: text) = .ok (.arr items, after) := by
  simp [readValue, hs, hc, h, bind, Except.bind, pure, Except.pure]

theorem readValue_members (hs : skipBlanks text = c :: rest) (hc : c ≠ '\x7d')
    (h : readMembers fuel (c :: rest) = .ok (members, after)) :
    readValue (fuel + 1) ('\x7b' :: text) = .ok (.obj (unique members), after) := by
  simp [readValue, hs, hc, h, bind, Except.bind, pure, Except.pure]

theorem readItems_last (h : readValue fuel text = .ok (item, ']' :: after)) :
    readItems (fuel + 1) text = .ok ([item], after) :=
  bind_eq_ok_iff.mpr ⟨_, h, rfl⟩

theorem readItems_next (h : readValue fuel text = .ok (item, ',' :: rest))
    (hr : readItems fuel (skipBlanks rest) = .ok (items, after)) :
    readItems (fuel + 1) text = .ok (item :: items, after) :=
  bind_eq_ok_iff.mpr ⟨_, h, bind_eq_ok_iff.mpr ⟨_, hr, rfl⟩⟩

theorem readMembers_last (h : readValue fuel (skipBlanks text) = .ok (value, '\x7d' :: after)) :
    readMembers (fuel + 1) (quote name ++ ':' :: text) = .ok ([(name, value)], after) := by
  rw [quote_append]
  exact bind_eq_ok_iff.mpr ⟨_, readText_quote name _, bind_eq_ok_iff.mpr ⟨_, h, rfl⟩⟩

theorem readMembers_next (h : readValue fuel (skipBlanks text) = .ok (value, ',' :: rest))
    (hr : readMembers fuel (skipBlanks rest) = .ok (members, after)) :
    readMembers (fuel + 1) (quote name ++ ':' :: text) = .ok ((name, value) :: members, after) := by
  rw [quote_append]
  refine bind_eq_ok_iff.mpr ⟨_, readText_quote name _, bind_eq_ok_iff.mpr ⟨_, h, ?_⟩⟩
  exact bind_eq_ok_iff.mpr ⟨_, hr, rfl⟩

end Steps

/-- A value is read back whatever may follow it, if the bound on the depth is not below the length
of its text. -/
def Restored (layout : Layout) (j : Json) : Prop :=
  ∀ fuel rest, Ends rest → (print layout j).length ≤ fuel →
    readValue fuel (print layout j ++ rest) = .ok (j, rest)

theorem length_print_pos (layout : Layout) (j : Json) : 0 < (print layout j).length := by
  obtain ⟨c, rest, h, -⟩ := print_cons layout j
  simp [h]

theorem Restored.of_succ {j : Json}
    (h : ∀ fuel rest, Ends rest → (print layout j).length ≤ fuel + 1 →
      readValue (fuel + 1) (print layout j ++ rest) = .ok (j, rest)) : Restored layout j := by
  intro fuel rest he hf
  have hp := length_print_pos layout j
  obtain ⟨fuel, rfl⟩ : ∃ k, fuel = k + 1 := ⟨fuel - 1, by omega⟩
  exact h fuel rest he hf

theorem readItems_printItems {item : Json} {items : List Json}
    (h : ∀ j ∈ item :: items, Restored layout j)
    (hf : (printItems layout (item :: items)).length < fuel) :
    readItems fuel (printItems layout (item :: items) ++ ']' :: after) =
      .ok (item :: items, after) := by
  -- every item is ended by the comma or the bracket after it, and each takes up some of the bound
  induction items generalizing item fuel with
  | nil =>
    obtain ⟨fuel, rfl⟩ : ∃ k, fuel = k + 1 := ⟨fuel - 1, by omega⟩
    rw [printItems] at hf ⊢
    exact readItems_last (h item (by simp) _ _ (.bracket _) (by omega))
  | cons next items ih =>
    obtain ⟨fuel, rfl⟩ : ∃ k, fuel = k + 1 := ⟨fuel - 1, by omega⟩
    have hp := length_print_pos layout item
    rw [printItems] at hf ⊢
    simp only [List.length_append, List.length_cons] at hf
    rw [List.append_assoc, List.cons_append, List.append_assoc]
    refine readItems_next (h item (by simp) _ _ (.comma _) (by omega)) ?_
    rw [skipBlanks_gap, skipBlanks_printItems]
    exact ih (fun j hj => h j (List.mem_cons_of_mem _ hj)) (by omega)

theorem readMembers_printMembers {m : String × Json} {members : List (String × Json)}
    (h : ∀ n ∈ m :: members, Restored layout n.2)
    (hf : (printMembers layout (m :: members)).length ≤ fuel) :
    readMembers fuel (printMembers layout (m :: members) ++ '\x7d' :: after) =
      .ok (m :: members, after) := by
  induction members generalizing m fuel with
  | nil =>
    rw [printMembers] at hf ⊢
    simp only [quote, List.length_append, List.length_cons] at hf
    obtain ⟨fuel, rfl⟩ : ∃ k, fuel = k + 1 := ⟨fuel - 1, by omega⟩
    rw [List.append_assoc, List.cons_append, List.append_assoc]
    refine readMembers_last ?_
    rw [skipBlanks_gap, skipBlanks_print]
    exact h m (by simp) _ _ (.brace _) (by omega)
  | cons next members ih =>
    rw [printMembers] at hf ⊢
    simp only [quote, List.length_append, List.length_cons] at hf
    obtain ⟨fuel, rfl⟩ : ∃ k, fuel = k + 1 := ⟨fuel - 1, by omega⟩
    simp only [List.append_assoc, List.cons_append]
    apply readMembers_next
    · rw [skipBlanks_gap, skipBlanks_print]
      exact h m (by simp) _ _ (.comma _) (by omega)
    · rw [skipBlanks_gap, skipBlanks_printMembers]
      exact ih (fun n hn => h n (List.mem_cons_of_mem _ hn)) (by omega)

theorem restored_number {j : Json} (hp : ∃ c rest, print layout j = c :: rest ∧ StartsNumber c)
    (hs : ∀ rest, Ends rest → readScalar (print layout j ++ rest) = .ok (j, rest)) :
    Restored layout j := by
  refine .of_succ fun fuel rest he _ => ?_
  obtain ⟨c, cs, h, hc⟩ := hp
  have hr := hs rest he
  rw [h] at hr ⊢
  exact (readValue_number hc).trans hr

theorem restored_arr {items : List Json} (h : ∀ item ∈ items, Restored layout item) :
    Restored layout (.arr items) := by
  refine .of_succ fun fuel rest _ hf => ?_
  rw [print] at hf ⊢
  simp only [List.length_append, List.length_cons, List.length_nil] at hf
  rw [List.cons_append, List.append_assoc]
  cases items with
  | nil => rfl
  | cons item items =>
    obtain ⟨c, cs, hp, hb, hc⟩ := printItems_cons layout item items
    have hr : readItems fuel (printItems layout (item :: items) ++ ']' :: rest) = _ :=
      readItems_printItems h (by omega)
    rw [hp] at hr ⊢
    exact readValue_items (skipBlanks_cons hb _) hc hr

theorem restored_obj {members : List (String × Json)} (hn : (members.map (·.1)).Nodup)
    (h : ∀ m ∈ members, Restored layout m.2) : Restored layout (.obj members) := by
  refine .of_succ fun fuel rest _ hf => ?_
  rw [print] at hf ⊢
  simp only [List.length_append, List.length_cons, List.length_nil] at hf
  rw [List.cons_append, List.append_assoc]
  cases members with
  | nil => rfl
  | cons m members =>
    have hr : readMembers fuel (printMembers layout (m :: members) ++ '\x7d' :: rest) = _ :=
      readMembers_printMembers h (by omega)
    obtain ⟨cs, hp⟩ := printMembers_cons layout m members
    rw [hp] at hr ⊢
    have hv := readValue_members (skipBlanks_cons (by decide) _) (by decide) hr
    rwa [unique_of_nodup hn] at hv

/-- Every readable value is read back. -/
theorem restored_of_readable {j : Json} (h : Readable j) : Restored layout j := by
  induction h with
  | null => exact .of_succ fun fuel rest _ _ => rfl
  | bool value => cases value <;> exact .of_succ fun fuel rest _ _ => rfl
  | @int n hl => exact restored_number (printInt_cons n) fun rest he => readScalar_printInt he hl
  | decimal d =>
    exact restored_number (printDecimal_cons d) fun rest he => readScalar_printDecimal he d
  | notANumber => exact .of_succ fun fuel rest _ _ => rfl
  | infinity negative => cases negative <;> exact .of_succ fun fuel rest _ _ => rfl
  | str s => exact .of_succ fun fuel rest _ _ => readValue_quote fuel s rest
  | arr h ih => exact restored_arr ih
  | obj hn h ih => exact restored_obj hn ih

/-- A readable value is the one that its text spells. -/
theorem parse_print {j : Json} (h : Readable j) (layout : Layout) :
    parse (print layout j) = .ok j := by
  have hf : (print layout j).length ≤ 2 * (print layout j).length + 2 := by omega
  have hr := restored_of_readable h _ [] .nil hf
  have hs := skipBlanks_print layout j []
  rw [List.append_nil] at hr hs
  rw [parse, hs, hr]
  rfl

/-- A readable value is the one that the bytes of its text spell. -/
theorem parseBytes_print {j : Json} (h : Readable j) (layout : Layout) :
    parseBytes (Text.Utf8.encode (print layout j)) = .ok j := by
  rw [parseBytes, decode_encode_print]
  dsimp only
  rw [parseText, parse_print h]
  rfl

end TeamAccess.Json
